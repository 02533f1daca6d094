import MappedStore.Proofs.Chain

/-!
# Readers and their engine

The readers that an engine has are the transactions that only read and have not ended, and the
engine lets those sleep that were reset (`System.Readers`). None of them is nested.
-/

namespace MappedStore

namespace Engine

variable {engine after : Engine} {handle : Nat}

/-- A use keeps the marks of the readers. -/
theorem Roster.marks_used (h : Roster engine) (hused : Used engine handle after) :
    after.reading.map Txn.mark = engine.reading.map Txn.mark := by
  cases hused with
  | same => rfl
  | through slot htxn huses => exact h.marks_replace htxn huses.kin
  | mainFlags flags htxn => exact h.marks_replace htxn ⟨rfl, rfl, rfl, rfl, rfl⟩
  | occupied htxn hoccupies =>
      have hkin := hoccupies.records.kin
      exact h.marks_replace htxn ⟨hkin.handle, hkin.readOnly, hkin.idle, hkin.commit, hkin.reader⟩
  | dropped htxn hslot hwriter huses =>
      exact h.marks_replace htxn (huses.kin.trans (Txn.kin_without _ _ _))

/-- What the end of a transaction does to the readers of an engine: it ends the one with the
handle, if there is one. -/
def EndsReader (handle : Nat) (before after : Engine) : Prop :=
  after.reading.map Txn.mark
    = (before.reading.filter fun reader ↦ reader.handle ≠ handle).map Txn.mark

/-- Readers of which none has the handle stay when those with the handle go. -/
theorem filter_reading (h : ∀ reader ∈ engine.reading, reader.handle ≠ handle) :
    (engine.reading.filter fun reader ↦ reader.handle ≠ handle) = engine.reading :=
  List.filter_eq_self.mpr fun reader hreader ↦ by simpa using h reader hreader

/-- Taking out the transactions with a handle takes out their marks. -/
theorem map_mark_filter (txns : List Txn) :
    (txns.filter fun txn ↦ txn.handle ≠ handle).map Txn.mark
      = (txns.map Txn.mark).filter fun mark ↦ mark.1 ≠ handle := by
  rw [List.filter_map]
  rfl

/-- Replacing a transaction replaces its mark. -/
theorem map_mark_replace (engine : Engine) (txn : Txn) :
    (engine.replace txn).reading.map Txn.mark
      = (engine.reading.map Txn.mark).map fun mark ↦
        if mark.1 = txn.mark.1 then txn.mark else mark := by
  unfold replace
  rw [List.map_map, List.map_map]
  refine List.map_congr_left fun other _ ↦ ?_
  exact apply_ite Txn.mark (other.handle = txn.handle) txn other

/-- The handle of a writer is that of no reader. -/
theorem Roster.not_reader (h : Roster engine) {writer : Txn} (hwriter : writer ∈ engine.writers) :
    ∀ reader ∈ engine.reading, reader.handle ≠ writer.handle := by
  intro reader hreader heq
  have hnodup := h.nodup
  rw [List.map_append, List.nodup_append] at hnodup
  exact hnodup.2.2 _ (List.mem_map_of_mem hwriter) _ (List.mem_map_of_mem hreader) heq.symm

/-- An abort ends the reader with the handle, if there is one. -/
theorem endsReader_of_aborted (hroster : Roster engine) (h : Aborted engine handle after) :
    EndsReader handle engine after := by
  unfold EndsReader
  cases h with
  | unknown htxn heq =>
      subst heq
      rw [filter_reading]
      intro reader hreader hhandle
      have hfound := hroster.txn?_handle (List.mem_append_right _ hreader)
      rw [hhandle, htxn] at hfound
      simp at hfound
  | reader htxn hreader hwriters hreading => rw [hreading]
  | @writer inner outer txn htxn hwriter hsplit hinner hwriters hreading =>
      have hmem : txn ∈ engine.writers := by simp [hsplit]
      rw [hreading, filter_reading]
      exact handle_of_txn? htxn ▸ hroster.not_reader hmem

/-- A commit ends the reader with the handle, if there is one. -/
theorem endsReader_of_committed (hroster : Roster engine) (h : Committed engine handle after) :
    EndsReader handle engine after := by
  unfold EndsReader
  cases h with
  | @reader txn htxn hreader =>
      rw [(endReader_cases engine txn true).2.1, handle_of_txn? htxn]
  | @nested child parent rest hwriters hhandle =>
      have hmem : child ∈ engine.writers := by simp [hwriters]
      rw [filter_reading]
      exact hhandle ▸ hroster.not_reader hmem
  | @root txn recorded image hwriters hhandle hnamed =>
      have hmem : txn ∈ engine.writers := by simp [hwriters]
      rw [filter_reading]
      · rfl
      · exact hhandle ▸ hroster.not_reader hmem

/-- An engine that refuses a commit ends the reader with the handle, if there is one. -/
theorem endsReader_of_refused {middle : Engine} (hroster : Roster engine)
    (h : Refused engine handle middle) : EndsReader handle engine (middle.abort handle) := by
  have hmiddle := hroster.of_stays h.stays
  have hends := endsReader_of_aborted hmiddle (abort_cases hmiddle handle).1
  unfold EndsReader at *
  rw [hends, map_mark_filter, map_mark_filter, h.marks]

end Engine

namespace System

variable {system after : System} {action : Action} {env : EnvId} {txn : TxnId}

/-- The stage of life of a transaction that only reads, as its engine knows it. -/
def readingState (idle : Bool) : TxnState := if idle then .reset else .active

/-- The readers of the engine of an environment are the transactions that only read. -/
structure Readers (system : System) (env : EnvId) : Prop where
  known : ∀ reader ∈ (system.engine env).reading, ∃ txn,
    (system.transaction txn).env = env ∧ system.native txn = reader.handle ∧
      (system.transaction txn).readOnly = true ∧
      (system.transaction txn).state = readingState reader.idle
  reader : ∀ txn, (system.transaction txn).env = env → (system.transaction txn).readOnly = true →
    (system.transaction txn).state.isFinished = false →
    ∃ reader ∈ (system.engine env).reading, reader.handle = system.native txn

/-- In every environment the readers are the transactions that only read, and none is nested. -/
structure Attended (system : System) : Prop where
  readers : ∀ env, Readers system env
  root : ∀ txn, (system.transaction txn).readOnly = true → (system.transaction txn).parent = none

/-- The stages of life of readers that still read. -/
theorem readingState_isFinished (idle : Bool) : (readingState idle).isFinished = false := by
  cases idle <;> rfl

/-- A reader that is not at rest is awake. -/
theorem idle_of_readingState {idle : Bool} (h : readingState idle = .active) : idle = false := by
  cases idle with
  | false => rfl
  | true => cases h

/-- The marks of the readers that the engine of an environment has. -/
def marks (system : System) (env : EnvId) : List (Nat × Bool) :=
  (system.engine env).reading.map Engine.Txn.mark

/-- A transaction that only reads and has the mark of a reader of its engine. -/
structure Bears (system : System) (env : EnvId) (mark : Nat × Bool) (txn : TxnId) : Prop where
  env_eq : (system.transaction txn).env = env
  native : system.native txn = mark.1
  readOnly : (system.transaction txn).readOnly = true
  state : (system.transaction txn).state = readingState mark.2

/-- A transaction that only reads and has not ended. -/
structure Reads (system : System) (env : EnvId) (txn : TxnId) : Prop where
  env_eq : (system.transaction txn).env = env
  readOnly : (system.transaction txn).readOnly = true
  unfinished : (system.transaction txn).state.isFinished = false

/-- A transaction that reads is there. -/
theorem Reads.lt (h : Reads system env txn) : txn < system.transactions.length :=
  lt_of_state rfl h.unfinished

/-- A transaction that has the mark of a reader has not ended. -/
theorem Bears.reads {mark : Nat × Bool} (h : Bears system env mark txn) : Reads system env txn :=
  ⟨h.env_eq, h.readOnly, (congrArg TxnState.isFinished h.state).trans (readingState_isFinished _)⟩

/-- The mark of a transaction depends on its stage only. -/
theorem Bears.congr {mark : Nat × Bool} (h : Bears system env mark txn)
    (hpost : (after.transaction txn).post = (system.transaction txn).post) :
    Bears after env mark txn :=
  ⟨(congrArg (·.1.1) hpost).trans h.env_eq, (congrArg (·.1.2.1) hpost).trans h.native,
    (congrArg (·.1.2.2.1) hpost).trans h.readOnly, (congrArg (·.2.1) hpost).trans h.state⟩

/-- Whether a transaction reads depends on its stage only. -/
theorem Reads.congr (h : Reads system env txn)
    (hpost : (after.transaction txn).post = (system.transaction txn).post) : Reads after env txn :=
  ⟨(congrArg (·.1.1) hpost).trans h.env_eq, (congrArg (·.1.2.2.1) hpost).trans h.readOnly,
    (congrArg (·.2.1.isFinished) hpost).trans h.unfinished⟩

/-- A transaction that reads after an entry has read before, unless it has entered as a reader. -/
theorem Reads.of_enter {place : EnvId} {engine : Engine} {entering : Transaction}
    (h : Reads ((system.setEngine place engine).enter entering) env txn)
    (hentering : entering.readOnly = true → entering.env ≠ env) : Reads system env txn := by
  obtain ⟨henv, hreadOnly, hunfinished⟩ := h
  have houtcome := (system.setEngine place engine).enter_outcome entering txn
  generalize ((system.setEngine place engine).enter entering).transaction txn = found
    at houtcome henv hreadOnly hunfinished
  cases houtcome with
  | kept => exact ⟨henv, hreadOnly, hunfinished⟩
  | entered => exact absurd henv (hentering hreadOnly)
  | beyond => cases hunfinished

/-- The readers are known by their marks alone. -/
theorem readers_iff : Readers system env ↔
    (∀ mark ∈ system.marks env, ∃ txn, Bears system env mark txn) ∧
      ∀ txn, Reads system env txn → ∃ mark ∈ system.marks env, mark.1 = system.native txn := by
  constructor
  · refine fun h ↦ ⟨fun mark hmark ↦ ?_, fun txn hreads ↦ ?_⟩
    · obtain ⟨reader, hreader, rfl⟩ := List.mem_map.mp hmark
      obtain ⟨txn, henv, hnative, hreadOnly, hstate⟩ := h.known reader hreader
      exact ⟨txn, henv, hnative, hreadOnly, hstate⟩
    · obtain ⟨reader, hreader, hhandle⟩ :=
        h.reader txn hreads.env_eq hreads.readOnly hreads.unfinished
      exact ⟨reader.mark, List.mem_map_of_mem hreader, hhandle⟩
  · rintro ⟨hknown, hreader⟩
    refine ⟨fun reader hmem ↦ ?_, fun txn henv hreadOnly hstate ↦ ?_⟩
    · obtain ⟨txn, h⟩ := hknown reader.mark (List.mem_map_of_mem hmem)
      exact ⟨txn, h.env_eq, h.native, h.readOnly, h.state⟩
    · obtain ⟨mark, hmark, hnative⟩ := hreader txn ⟨henv, hreadOnly, hstate⟩
      obtain ⟨reader, hmem, rfl⟩ := List.mem_map.mp hmark
      exact ⟨reader, hmem, hnative⟩

/-- Two transactions of an environment that have one handle are the same. -/
theorem Reads.eq_of_native (h : Reads system env txn) (hanchored : Anchored system) {other : TxnId}
    (hother : other < system.transactions.length) (henv : (system.transaction other).env = env)
    (hnative : system.native txn = system.native other) : txn = other :=
  hanchored.native_inj txn h.lt other hother (h.env_eq.trans henv.symm) hnative

/-- A transaction with the handle of a reader only reads, and sleeps if the reader does. -/
theorem Readers.owner (h : Readers system env) (hanchored : Anchored system)
    (htxn : txn < system.transactions.length) (henv : (system.transaction txn).env = env)
    {reader : Engine.Txn} (hreader : reader ∈ (system.engine env).reading)
    (hhandle : reader.handle = system.native txn) :
    (system.transaction txn).readOnly = true ∧
      (system.transaction txn).state = readingState reader.idle := by
  obtain ⟨owner, howner⟩ := (readers_iff.mp h).1 reader.mark (List.mem_map_of_mem hreader)
  obtain rfl := howner.reads.eq_of_native hanchored htxn henv (howner.native.trans hhandle)
  exact ⟨howner.readOnly, howner.state⟩

/-- Readers stay if their engine keeps their marks, and they are as they were. -/
theorem Readers.keep (h : Readers system env)
    (hmarks : (after.engine env).reading.map Engine.Txn.mark
      = (system.engine env).reading.map Engine.Txn.mark)
    (hback : ∀ txn, Reads after env txn → Reads system env txn)
    (hpost : ∀ txn < system.transactions.length, (system.transaction txn).env = env →
      (after.transaction txn).post = (system.transaction txn).post) : Readers after env := by
  obtain ⟨hknown, hreader⟩ := readers_iff.mp h
  replace hmarks : after.marks env = system.marks env := hmarks
  refine readers_iff.mpr ⟨fun mark hmark ↦ ?_, fun txn hreads ↦ ?_⟩
  · obtain ⟨txn, hbears⟩ := hknown mark (hmarks ▸ hmark)
    exact ⟨txn, hbears.congr (hpost txn hbears.reads.lt hbears.env_eq)⟩
  · have hbefore := hback txn hreads
    have hsame := hpost txn hbefore.lt hbefore.env_eq
    obtain ⟨mark, hmark, hnative⟩ := hreader txn hbefore
    exact ⟨mark, hmarks.symm ▸ hmark, hnative.trans (congrArg (·.1.2.1) hsame).symm⟩

/-- When a transaction of an environment ends, its engine has one reader less if it was one. -/
theorem Readers.finish (h : Readers system env) (hanchored : Anchored system)
    (htxn : txn < system.transactions.length) (henv : (system.transaction txn).env = env)
    {state : TxnState} (hstate : state.isFinished = true)
    (hends : Engine.EndsReader (system.native txn) (system.engine env) (after.engine env))
    (hlength : after.transactions.length = system.transactions.length)
    (hpost : ∀ txn, (after.transaction txn).post = (system.transaction txn).post) :
    Readers (after.finish txn state) env := by
  obtain ⟨hknown, hreader⟩ := readers_iff.mp h
  have hother : ∀ other ≠ txn, ((after.finish txn state).transaction other).post
      = (system.transaction other).post := fun other hne ↦
    (field_finish_of_ne Transaction.post (fun _ _ ↦ by rfl) state hne).trans (hpost other)
  have hself : ((after.finish txn state).transaction txn).state = state :=
    field_finish_self (·.state) (fun _ _ ↦ by rfl) state (hlength ▸ htxn)
  have hmem : ∀ mark, mark ∈ (after.finish txn state).marks env ↔
      mark ∈ system.marks env ∧ mark.1 ≠ system.native txn := by
    intro mark
    rw [marks, engine_finish, hends, Engine.map_mark_filter, List.mem_filter, decide_eq_true_eq]
    rfl
  refine readers_iff.mpr ⟨fun mark hmark ↦ ?_, fun owner hreads ↦ ?_⟩
  · obtain ⟨hmark, hne⟩ := (hmem mark).mp hmark
    obtain ⟨owner, hbears⟩ := hknown mark hmark
    have howner : owner ≠ txn := by
      rintro rfl
      exact hne hbears.native.symm
    exact ⟨owner, hbears.congr (hother owner howner)⟩
  · have howner : owner ≠ txn := by
      rintro rfl
      have hunfinished := hreads.unfinished
      rw [hself, hstate] at hunfinished
      cases hunfinished
    have hbefore := hreads.congr (hother owner howner).symm
    obtain ⟨mark, hmark, hnative⟩ := hreader owner hbefore
    refine ⟨mark, (hmem mark).mpr ⟨hmark, fun heq ↦ howner ?_⟩,
      hnative.trans (congrArg (·.1.2.1) (hother owner howner)).symm⟩
    exact hbefore.eq_of_native hanchored htxn henv (hnative.symm.trans heq)

/-- A transaction that enters leaves the readers of an environment, unless it enters that
environment as a reader. -/
theorem Readers.entered (h : Readers system env) {place : EnvId} {engine : Engine}
    {entering : Transaction} (hmarks : (system.setEngine place engine).marks env = system.marks env)
    (hentering : entering.readOnly = true → entering.env ≠ env) :
    Readers ((system.setEngine place engine).enter entering) env := by
  refine h.keep ?_ (fun other hreads ↦ hreads.of_enter hentering) fun other hlt _ ↦
    field_enter Transaction.post (fun _ _ ↦ by rfl) entering hlt
  rw [engine_enter]
  exact hmarks

/-- A reader joins the others: its transaction enters, and its engine has its mark. -/
theorem Readers.join (h : Readers system env) {engine : Engine} {entering : Transaction}
    (hmarks : (system.setEngine env engine).marks env = (entering.native, false) :: system.marks env)
    (henv : entering.env = env) (hreader : entering.readOnly = true)
    (hactive : entering.state = .active) :
    Readers ((system.setEngine env engine).enter entering) env := by
  have hentered : ((system.setEngine env engine).enter entering).marks env
      = (entering.native, false) :: system.marks env := by
    rw [marks, engine_enter]
    exact hmarks
  have hnew : ((system.setEngine env engine).enter entering).transaction system.transactions.length
      = entering := transaction_enter (system.setEngine env engine) entering
  have hold : ∀ other < system.transactions.length,
      (((system.setEngine env engine).enter entering).transaction other).post
        = (system.transaction other).post := fun other hother ↦
    field_enter Transaction.post (fun _ _ ↦ by rfl) entering hother
  have hlength := length_enter (system.setEngine env engine) entering
  generalize (system.setEngine env engine).enter entering = after at *
  have hbears : Bears after env (entering.native, false) system.transactions.length := by
    constructor
    · rw [hnew, henv]
    · rw [native, hnew]
    · rw [hnew, hreader]
    · rw [hnew, hactive]
      rfl
  obtain ⟨hknown, hreader⟩ := readers_iff.mp h
  refine readers_iff.mpr ⟨fun found hfound ↦ ?_, fun txn hreads ↦ ?_⟩
  · rcases List.mem_cons.mp (hentered ▸ hfound) with rfl | hfound
    · exact ⟨_, hbears⟩
    · obtain ⟨txn, hbears⟩ := hknown found hfound
      exact ⟨txn, hbears.congr (hold txn hbears.reads.lt)⟩
  · rw [hentered]
    rcases Nat.lt_or_eq_of_le (Nat.le_of_lt_succ (hlength ▸ hreads.lt)) with hlt | rfl
    · obtain ⟨found, hfound, hnative⟩ := hreader txn (hreads.congr (hold txn hlt).symm)
      exact ⟨found, List.mem_cons_of_mem _ hfound,
        hnative.trans (congrArg (·.1.2.1) (hold txn hlt)).symm⟩
    · exact ⟨_, List.mem_cons_self, hbears.native.symm⟩

/-- The mark of a reader changes, and so does the stage of the transaction that bears it. -/
theorem Readers.remark (h : Readers system env) (hanchored : Anchored system)
    (hreads : Reads system env txn) {mark : Nat × Bool} (hmark : mark.1 = system.native txn)
    (hmarks : after.marks env
      = (system.marks env).map fun found ↦ if found.1 = mark.1 then mark else found)
    (hself : Bears after env mark txn)
    (hother : ∀ other ≠ txn, (after.transaction other).post = (system.transaction other).post) :
    Readers after env := by
  obtain ⟨hknown, hreader⟩ := readers_iff.mp h
  refine readers_iff.mpr ⟨fun found hfound ↦ ?_, fun owner howner ↦ ?_⟩
  · rw [hmarks] at hfound
    obtain ⟨before, hbefore, rfl⟩ := List.mem_map.mp hfound
    split
    · exact ⟨txn, hself⟩
    · rename_i hne
      obtain ⟨owner, hbears⟩ := hknown before hbefore
      have howner : owner ≠ txn := by
        rintro rfl
        exact hne (hbears.native.symm.trans hmark.symm)
      exact ⟨owner, hbears.congr (hother owner howner)⟩
  · rw [hmarks]
    by_cases hsame : owner = txn
    · subst hsame
      obtain ⟨before, hbefore, hnative⟩ := hreader owner hreads
      exact ⟨mark, List.mem_map.mpr ⟨before, hbefore, if_pos (hnative.trans hmark.symm)⟩,
        hself.native.symm⟩
    · have hpost := hother owner hsame
      have hownerBefore := howner.congr hpost.symm
      obtain ⟨before, hbefore, hnative⟩ := hreader owner hownerBefore
      refine ⟨before, List.mem_map.mpr ⟨before, hbefore, if_neg fun heq ↦ hsame ?_⟩,
        hnative.trans (congrArg (·.1.2.1) hpost).symm⟩
      exact hownerBefore.eq_of_native hanchored hreads.lt hreads.env_eq
        (hnative.symm.trans (heq.trans hmark))

/-! ## Transitions -/

/-- The end of a transaction leaves readers. -/
theorem Attended.finish (h : Attended system) (hanchored : Anchored system)
    (htxn : txn < system.transactions.length) {state : TxnState} (hstate : state.isFinished = true)
    {engine : Engine}
    (hends : Engine.EndsReader (system.native txn) (system.engineOf txn) engine)
    (hengine : ∀ env, after.engine env = (system.setEngineOf txn engine).engine env)
    (hlength : after.transactions.length = system.transactions.length)
    (hpost : ∀ txn, (after.transaction txn).post = (system.transaction txn).post) :
    Attended (after.finish txn state) := by
  have hidentity : ∀ other, ((after.finish txn state).transaction other).identity
      = (system.transaction other).identity := fun other ↦
    (field_finish Transaction.identity (fun _ _ _ _ ↦ by rfl) after txn state other).trans
      (congrArg (·.1) (hpost other))
  constructor
  · intro env
    by_cases henv : (system.transaction txn).env = env
    · subst henv
      refine (h.readers _).finish hanchored htxn rfl hstate ?_ hlength hpost
      rw [hengine, setEngineOf, engine_setEngine engine (hanchored.env_lt txn htxn)]
      exact hends
    · have hsame : ∀ other, (system.transaction other).env = env →
          ((after.finish txn state).transaction other).post = (system.transaction other).post := by
        intro other hother
        have hne : other ≠ txn := fun heq ↦ henv (heq ▸ hother)
        exact (field_finish_of_ne Transaction.post (fun _ _ ↦ by rfl) state hne).trans (hpost other)
      refine (h.readers env).keep ?_ (fun other hreads ↦ ?_) fun other _ ↦ hsame other
      · rw [engine_finish, hengine, setEngineOf, engine_setEngine_of_ne engine (Ne.symm henv)]
      · have hbefore := (congrArg (·.1) (hidentity other)).symm.trans hreads.env_eq
        exact hreads.congr (hsame other hbefore).symm
  · intro other hreadOnly
    exact (congrArg (·.2.2.2) (hidentity other)).trans
      (h.root other ((congrArg (·.2.2.1) (hidentity other)).symm.trans hreadOnly))

/-- A transition that keeps the marks of readers and the stages of transactions leaves readers. -/
theorem Attended.keep (h : Attended system)
    (hmarks : ∀ env, (after.engine env).reading.map Engine.Txn.mark
      = (system.engine env).reading.map Engine.Txn.mark)
    (hpost : ∀ txn, (after.transaction txn).post = (system.transaction txn).post) :
    Attended after := by
  constructor
  · exact fun env ↦ (h.readers env).keep (hmarks env)
      (fun txn hreads ↦ hreads.congr (hpost txn).symm) fun txn _ _ ↦ hpost txn
  · intro txn hreadOnly
    exact (congrArg (·.1.2.2.2) (hpost txn)).trans
      (h.root txn ((congrArg (·.1.2.2.1) (hpost txn)).symm.trans hreadOnly))

/-- Engines of which one was replaced keep the marks of their readers if that one does. -/
theorem marks_setEngine {engine : Engine}
    (h : engine.reading.map Engine.Txn.mark = (system.engine env).reading.map Engine.Txn.mark)
    (other : EnvId) : ((system.setEngine env engine).engine other).reading.map Engine.Txn.mark
      = (system.engine other).reading.map Engine.Txn.mark :=
  engine_setEngine_induction
    (fun before after ↦ after.reading.map Engine.Txn.mark = before.reading.map Engine.Txn.mark)
    (fun _ ↦ rfl) h other

/-- A begin adds a reader, or leaves all readers. -/
theorem Attended.began (h : Attended system) {parent : Option TxnId} {flags : TxnFlags}
    {thread native : Nat} {engine : Engine}
    (hentrance : Entrance system env parent flags thread native engine after) : Attended after := by
  have hbegan := hentrance.began
  have hset := engine_setEngine engine hentrance.env_lt
  have houtcome := hentrance.outcome
  obtain rfl := hentrance.after_eq
  constructor
  · intro place
    by_cases hplace : place = env
    · subst hplace
      have hmarks : (system.setEngine place engine).marks place
          = engine.reading.map Engine.Txn.mark := by rw [marks, hset]
      cases hbegan with
      | reading readers reader hparent hflags =>
          exact (h.readers place).join hmarks rfl hflags rfl
      | root hparent hflags => exact (h.readers place).entered hmarks (by simp [entrant, hflags])
      | nested hparent hflags => exact (h.readers place).entered hmarks (by simp [entrant, hflags])
    · refine (h.readers place).entered ?_ fun _ ↦ Ne.symm hplace
      rw [marks, marks, engine_setEngine_of_ne engine hplace]
  · intro txn hreadOnly
    have htxn := houtcome txn
    generalize System.transaction _ txn = found at htxn hreadOnly ⊢
    cases htxn with
    | kept => exact h.root txn hreadOnly
    | entered =>
        -- the engine begins a reader only as a root
        cases hbegan with
        | reading readers reader hparent => simpa [entrant] using hparent
        | root hparent hwriter => simp [entrant, hwriter] at hreadOnly
        | nested hparent hwriter => simp [entrant, hwriter] at hreadOnly
    | beyond => rfl

/-- A reader is put to rest, or wakes. -/
theorem Attended.setState (h : Attended system) (hanchored : Anchored system)
    (found' : Engine.Txn) {engine : Engine}
    (hreader : (system.transaction txn).readOnly = true)
    (hunfinished : (system.transaction txn).state.isFinished = false)
    (hnative : found'.handle = system.native txn)
    (hreading : engine.reading = ((system.engineOf txn).replace found').reading) :
    Attended ((system.setEngineOf txn engine).setState txn (readingState found'.idle)) := by
  have hreads : Reads system (system.transaction txn).env txn := ⟨rfl, hreader, hunfinished⟩
  have hidentity : ∀ other, (((system.setEngineOf txn engine).setState txn
      (readingState found'.idle)).transaction other).identity
        = (system.transaction other).identity :=
    field_modifyTransaction Transaction.identity (fun _ ↦ by rfl) (system.setEngineOf txn engine) txn
  have hother : ∀ other ≠ txn, ((system.setEngineOf txn engine).setState txn
      (readingState found'.idle)).transaction other = system.transaction other := fun other hne ↦
    transaction_modifyTransaction_of_ne (system.setEngineOf txn engine) _ hne
  have hself : (((system.setEngineOf txn engine).setState txn
      (readingState found'.idle)).transaction txn).state = readingState found'.idle :=
    congrArg (·.state)
      (transaction_modifyTransaction_self (system.setEngineOf txn engine) _ hreads.lt)
  have hengine : ((system.setEngineOf txn engine).setState txn (readingState found'.idle)).engine
      = (system.setEngineOf txn engine).engine := funext fun env ↦ engine_setState _ _ _ env
  generalize (system.setEngineOf txn engine).setState txn (readingState found'.idle) = after at *
  have hreadOnly : ∀ other, (after.transaction other).readOnly = (system.transaction other).readOnly :=
    fun other ↦ congrArg (·.2.2.1) (hidentity other)
  refine ⟨fun env ↦ ?_, fun other hreads ↦ (congrArg (·.2.2.2) (hidentity other)).trans
    (h.root other (hreadOnly other ▸ hreads))⟩
  by_cases henv : (system.transaction txn).env = env
  · subst henv
    have hmarks : after.marks (system.transaction txn).env
        = (system.marks (system.transaction txn).env).map fun found ↦
          if found.1 = found'.mark.1 then found'.mark else found := by
      rw [marks, hengine, setEngineOf,
        engine_setEngine engine (hanchored.env_lt txn hreads.lt), hreading]
      exact Engine.map_mark_replace _ found'
    refine (h.readers _).remark hanchored hreads hnative hmarks ?_ fun other hne ↦
      congrArg _ (hother other hne)
    exact ⟨congrArg (·.1) (hidentity txn), (congrArg (·.2.1) (hidentity txn)).trans hnative.symm,
      (hreadOnly txn).trans hreader, hself⟩
  · -- the transaction is in another environment
    have hne : ∀ {other : TxnId}, (system.transaction other).env = env → other ≠ txn :=
      fun hplace heq ↦ henv (heq ▸ hplace)
    refine (h.readers env).keep ?_ (fun other hreads ↦ ?_) fun other _ hplace ↦
      congrArg _ (hother other (hne hplace))
    · rw [hengine, setEngineOf, engine_setEngine_of_ne engine (Ne.symm henv)]
    · have hbefore := (congrArg (·.1) (hidentity other)).symm.trans hreads.env_eq
      exact hreads.congr (congrArg _ (hother other (hne hbefore)).symm)

/-- A new environment has no readers yet, and leaves the others. -/
theorem Attended.opened (h : Attended system) (hanchored : Anchored system)
    (hbefore : ∀ env < system.environments.length,
      after.environment env = system.environment env)
    (hnew : ∀ env, system.environments.length ≤ env → Engine.Newborn (after.engine env))
    (htransactions : after.transactions = system.transactions) : Attended after := by
  have htransaction : ∀ txn, after.transaction txn = system.transaction txn :=
    transaction_congr htransactions
  refine ⟨fun env ↦ ?_, fun txn hreader ↦ ?_⟩
  · rcases Nat.lt_or_ge env system.environments.length with hlt | hge
    · refine (h.readers env).keep ?_ (fun txn hreads ↦ ?_) fun txn _ _ ↦
        congrArg _ (htransaction txn)
      · rw [engine, engine, hbefore env hlt]
      · exact hreads.congr (congrArg _ (htransaction txn).symm)
    · constructor
      · simp [(hnew env hge).reading]
      · intro txn henv _ hstate
        rw [htransaction] at henv hstate
        have hlt := hanchored.env_lt txn (lt_of_state rfl hstate)
        rw [henv] at hlt
        exact absurd hlt (Nat.not_lt.mpr hge)
  · rw [htransaction] at hreader ⊢
    exact h.root txn hreader

/-- The engine knows a transaction that only reads and has not ended, as a reader that sleeps
exactly if the transaction was reset. -/
theorem Attended.found (h : Attended system) (hanchored : Anchored system)
    (hreader : (system.transaction txn).readOnly = true)
    (hunfinished : (system.transaction txn).state.isFinished = false) :
    ∃ found ∈ (system.engineOf txn).reading,
      (system.engineOf txn).txn? (system.native txn) = some found ∧ found.readOnly = true ∧
        (system.transaction txn).state = readingState found.idle := by
  obtain ⟨found, hfound, hhandle⟩ := (h.readers _).reader txn rfl hreader hunfinished
  have howner := (h.readers _).owner hanchored (lt_of_state rfl hunfinished) rfl hfound hhandle
  have hroster := hanchored.roster (system.transaction txn).env
  have htxn := hroster.txn?_handle (List.mem_append_right _ hfound)
  exact ⟨found, hfound, hhandle ▸ htxn, hroster.reading found hfound, howner.2⟩

/-- The engine knows an active transaction that only reads, as a reader that is awake. -/
theorem Attended.awake (h : Attended system) (hanchored : Anchored system)
    (hreader : (system.transaction txn).readOnly = true)
    (hactive : (system.transaction txn).state = .active) :
    ∃ found ∈ (system.engineOf txn).reading,
      (system.engineOf txn).txn? (system.native txn) = some found ∧ found.readOnly = true ∧
        found.idle = false := by
  obtain ⟨found, hfound, hknown, hreadOnly, hstate⟩ :=
    h.found hanchored hreader (by rw [hactive]; rfl)
  exact ⟨found, hfound, hknown, hreadOnly, idle_of_readingState (hstate.symm.trans hactive)⟩

/-- A transaction that is at rest only reads. -/
theorem reader_of_reset (hanchored : Anchored system) (hchained : Chained system)
    {found : Engine.Txn} (hfound : (system.engineOf txn).txn? (system.native txn) = some found)
    (hstate : (system.transaction txn).state = .reset) :
    found ∈ (system.engineOf txn).reading := by
  rcases List.mem_append.mp (Engine.mem_of_txn? hfound) with hwriter | hreader
  · obtain ⟨ids, hchain⟩ := hchained (system.transaction txn).env
    have hmem := hchain.mem hanchored (lt_of_state hstate rfl) rfl hwriter
      (Engine.handle_of_txn? hfound)
    simp [hchain.active txn hmem] at hstate
  · exact hreader

/-- A reset puts a reader to rest. -/
theorem Attended.rested (h : Attended system) (hanchored : Anchored system)
    (hreader : (system.transaction txn).readOnly = true)
    (hactive : (system.transaction txn).state = .active) :
    Attended ((system.setEngineOf txn ((system.engineOf txn).reset (system.native txn))).setState
      txn .reset) := by
  obtain ⟨found, -, hfound, hreadOnly, hawake⟩ := h.awake hanchored hreader hactive
  have hreset := Engine.reset_cases (system.engineOf txn) (system.native txn)
  generalize (system.engineOf txn).reset (system.native txn) = engine at hreset ⊢
  cases hreset with
  | same hsame => simp [hsame found hfound hreadOnly] at hawake
  | @idle sleeper readers reader hsleeper =>
      have hhandle : sleeper.handle = system.native txn := Engine.handle_of_txn? hsleeper
      exact h.setState hanchored { sleeper with idle := true, reader := reader } hreader
        (by rw [hactive]; rfl) hhandle rfl

/-- A renewal wakes a reader. -/
theorem Attended.woken (h : Attended system) (hanchored : Anchored system)
    (hchained : Chained system) (hstate : (system.transaction txn).state = .reset)
    {thread : Nat} {engine : Engine}
    (hrenew : (system.engineOf txn).renew (system.native txn) thread = (.ok (), engine)) :
    Attended ((system.setEngineOf txn engine).setState txn .active) := by
  have hunfinished : (system.transaction txn).state.isFinished = false := by
    rw [hstate]
    rfl
  cases renewed_of_renew hrenew with
  | @mk found readers reader hfound hidle =>
      have hmem := reader_of_reset hanchored hchained hfound hstate
      have hhandle : found.handle = system.native txn := Engine.handle_of_txn? hfound
      have howner := (h.readers _).owner hanchored (lt_of_state rfl hunfinished) rfl hmem hhandle
      exact h.setState hanchored
        { found with
          idle := false
          commit := (system.engineOf txn).image.commit
          reader := reader
          main := Engine.Txn.mainOf (system.engineOf txn).image.snapshot
          named := (system.engineOf txn).slots.fresh (system.engineOf txn).known
            (Engine.remember [] found.named)
          tables := (system.engineOf txn).image.snapshot.named }
        howner.1 hunfinished hhandle rfl

/-- A transition leaves readers. -/
theorem Attended.transition (h : Attended system) (hanchored : Anchored system)
    (hchained : Chained system) (htransition : Transition system action after) :
    Attended after := by
  have hroster := hanchored.roster
  have hset : ∀ (txn : TxnId) (use : Engine.Use) {engine : Engine},
      (system.engineOf txn).use (system.native txn) use = engine →
        Attended (system.setEngineOf txn engine) := by
    rintro txn use engine rfl
    exact h.keep (marks_setEngine ((hroster _).marks_used (Engine.use_used _ _ use))) fun _ ↦ rfl
  have hmodify : ∀ {s : System} {txn : TxnId} {change : Transaction → Transaction}, Attended s →
      (∀ before, (change before).post = before.post) → Attended (s.modifyTransaction txn change) :=
    fun hs hchange ↦ hs.keep (fun _ ↦ rfl) fun other ↦
      field_modifyTransaction Transaction.post hchange _ _ other
  cases htransition with
  | idle => exact h
  | files => exact h.keep (fun _ ↦ rfl) fun _ ↦ rfl
  | @openedEnvironment path flags config kind engine files hopen =>
      have htransition : Transition system (.openEnvironment path flags config kind) _ :=
        .openedEnvironment hopen
      exact h.opened hanchored (fun env ↦ environment_append files _)
        (fun env henv ↦ (htransition.newborn henv).1) rfl
  | @closed env files hactive =>
      refine h.keep (fun other ↦ ?_) fun _ ↦ rfl
      exact congrArg (fun engine : Engine ↦ engine.reading.map Engine.Txn.mark)
        (field_modifyEnvironment (·.engine) (fun _ ↦ by rfl) system env other)
  | aside files haction haside =>
      obtain ⟨readers, next, -, rfl⟩ := haside
      exact h.keep (marks_setEngine rfl) fun _ ↦ rfl
  | used use haction hfault => exact hset _ use rfl
  | @reopened txn name flags slot generation engine hfault hopen hlive =>
      exact hmodify (hset txn (.openDatabase _ flags) (congrArg Prod.snd hopen)) fun _ ↦ by rfl
  | @opened txn name flags slot engine hfault hopen hlive =>
      have hadvanced :
          Attended ((system.setEngineOf txn engine).advance (system.transaction txn).env) :=
        (hset txn (.openDatabase _ flags) (congrArg Prod.snd hopen)).keep
          (fun env ↦ by rw [engine_advance]) fun _ ↦ rfl
      exact hmodify hadvanced fun _ ↦ by rfl
  | @dropped txn database engine hfault henv' hlive hslot hdrop =>
      exact hmodify (hset txn (.drop database.slot true) (congrArg Prod.snd hdrop)) fun _ ↦ by rfl
  | began hfault hunlocked hanswer => exact h.began ⟨hfault, hunlocked, hanswer, rfl⟩
  | committed hfault hcommit =>
      refine h.finish hanchored (lt_of_lifecycleFault hfault) rfl
        (Engine.endsReader_of_committed (hroster _) (committed_of_commit (hroster _) hcommit))
        (engine_handOver _ _) (length_handOver _ _) fun other ↦ ?_
      exact field_handOver Transaction.post (fun _ _ _ ↦ by rfl) _ _ other
  | commitFailed hfault hcommit =>
      obtain ⟨middle, hrefused, rfl⟩ := refused_of_commit (hroster _) hcommit
      exact h.finish hanchored (lt_of_lifecycleFault hfault) rfl
        (Engine.endsReader_of_refused (hroster _) hrefused) (fun _ ↦ rfl) rfl fun _ ↦ rfl
  | @discarded action txn haction hstate =>
      exact h.finish hanchored (lt_of_state rfl hstate) rfl
        (Engine.endsReader_of_aborted (hroster _) (Engine.abort_cases (hroster _) _).1)
        (fun _ ↦ rfl) rfl fun _ ↦ rfl
  | reset hfault hreader => exact h.rested hanchored hreader (active_of_lifecycleFault hfault).1
  | renewed hstate hrenew => exact h.woken hanchored hchained hstate hrenew

/-- There are no readers before any environment was opened. -/
theorem attended_start (checks : Bool) (files : Files.Tree) :
    Attended { checks := checks, files := files } := by
  have hreading : ∀ env,
      (System.engine { checks := checks, files := files } env).reading = [] := fun _ ↦ rfl
  refine ⟨fun env ↦ ⟨fun reader hreader ↦ ?_, fun txn _ _ h ↦ ?_⟩, fun txn _ ↦ rfl⟩
  · simp [hreading] at hreader
  · simp [transaction, Transaction.ended, TxnState.isFinished] at h

end System

end MappedStore
