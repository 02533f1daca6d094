import MappedStore.Proofs.Sound

/-!
# Transactions that can write

A transaction writes if its engine has it among the writers (`System.Writes`). Those of an
environment are nested in each other, so at most the innermost can be used, and the commit of the
root leaves none.
-/

namespace MappedStore

namespace Engine

variable {engine after : Engine} {actor : Option Nat}

/-- A writer of an engine was one before the last step, unless it got its handle from that step. -/
theorem Turn.writer_back (h : Turn engine actor after) (hroster : Roster engine) {writer : Txn}
    (hwriter : writer ∈ after.writers) (hhandle : writer.handle < engine.nextHandle) :
    ∃ before ∈ engine.writers, before.handle = writer.handle := by
  have hkept : ∀ {other : Engine}, other.writers.map Txn.tag = engine.writers.map Txn.tag →
      writer ∈ other.writers → ∃ before ∈ engine.writers, before.handle = writer.handle := by
    intro other htags hmem
    have htag := List.mem_map_of_mem (f := Txn.tag) hmem
    rw [htags] at htag
    obtain ⟨before, hbefore, heq⟩ := List.mem_map.mp htag
    exact ⟨before, hbefore, congrArg (·.1) heq⟩
  cases h with
  | used hused => exact hkept (hroster.stays_used hused).writers hwriter
  | reset hreset => exact hkept (hroster.stays_reset hreset).writers hwriter
  | renewed hrenewed => exact hkept (hroster.stays_renewed hrenewed).writers hwriter
  | aside haside =>
      obtain ⟨readers, next, -, rfl⟩ := haside
      exact ⟨writer, hwriter, rfl⟩
  | began hbegan =>
      cases hbegan with
      | reading => exact ⟨writer, hwriter, rfl⟩
      | root | nested =>
          rcases List.mem_cons.mp hwriter with rfl | hmem
          · exact absurd hhandle (Nat.lt_irrefl _)
          · exact ⟨writer, hmem, rfl⟩
  | committed hcommitted =>
      cases hcommitted with
      | @reader txn htxn hreader =>
          rw [(endReader_cases engine txn true).1] at hwriter
          exact ⟨writer, hwriter, rfl⟩
      | @nested child parent rest hwriters =>
          rw [hwriters]
          rcases List.mem_cons.mp hwriter with rfl | hmem
          · exact ⟨parent, by simp, rfl⟩
          · exact ⟨writer, by simp [hmem], rfl⟩
      | root => simp [endWriter] at hwriter
  | @ended handle middle hrefused =>
      have hmiddle := hroster.of_stays hrefused.stays
      refine hkept hrefused.stays.writers ?_
      cases (abort_cases hmiddle handle).1 with
      | unknown _ heq => exact heq ▸ hwriter
      | reader _ _ hwriters => exact hwriters ▸ hwriter
      | writer _ _ hsplit _ hwriters =>
          rw [hwriters] at hwriter
          exact (outer_sublist hsplit).subset hwriter

end Engine

namespace System

variable {system after : System} {action : Action} {env : EnvId} {txn other : TxnId}

/-- A transaction that its engine has among the writers. -/
def Writes (system : System) (txn : TxnId) : Prop :=
  txn < system.transactions.length ∧
    ∃ writer ∈ (system.engineOf txn).writers, writer.handle = system.native txn

/-- The transactions that write are the members of the chain. -/
theorem Chain.writes_iff {ids : List TxnId} (h : Chain system env ids) (hanchored : Anchored system)
    (henv : (system.transaction txn).env = env) : Writes system txn ↔ txn ∈ ids := by
  subst henv
  constructor
  · rintro ⟨hlt, writer, hwriter, hhandle⟩
    exact h.mem hanchored hlt rfl hwriter hhandle
  · intro hmem
    obtain ⟨found, hfound, -, hhandle⟩ := h.known hanchored hmem
    exact ⟨h.lt hmem, found, hfound, hhandle⟩

/-- A transaction that writes is active and does not only read. -/
theorem Sound.of_writes (h : Sound system) (hwrites : Writes system txn) :
    (system.transaction txn).readOnly = false ∧ (system.transaction txn).state = .active := by
  obtain ⟨ids, hchain⟩ := h.chained (system.transaction txn).env
  have hmem := (hchain.writes_iff h.anchored rfl).mp hwrites
  exact ⟨hchain.writer txn hmem, hchain.active txn hmem⟩

/-- A transaction that writes after an action did so before it, unless the action began it. -/
theorem Sound.writes_back (h : Sound system) (htxn : txn < system.transactions.length)
    (hwrites : Writes (system.after action) txn) : Writes system txn := by
  have htransition := h.transition action
  obtain ⟨-, writer, hwriter, hhandle⟩ := hwrites
  have hidentity := htransition.identity htxn
  have henv : ((system.after action).transaction txn).env = (system.transaction txn).env :=
    congrArg (·.1) hidentity
  have hnative : (system.after action).native txn = system.native txn := congrArg (·.2.1) hidentity
  rw [engineOf, henv] at hwriter
  rw [hnative] at hhandle
  have hturn := htransition.turn h.anchored.roster (h.anchored.env_lt txn htxn)
  obtain ⟨before, hbefore, hsame⟩ := hturn.writer_back (h.anchored.roster _) hwriter
    (hhandle ▸ h.anchored.native_lt txn htxn)
  exact ⟨htxn, before, hbefore, hsame.trans hhandle⟩

/-- A writer that its engine lets be used is the innermost one. -/
theorem Sound.innermost (h : Sound system) (htxn : txn < system.transactions.length)
    {found : Engine.Txn} (hfound : (system.engineOf txn).txn? (system.native txn) = some found)
    (hwriter : found.readOnly = false) (hblocked : (system.engineOf txn).isBlocked found = false) :
    Writes system txn ∧ ∀ other, (system.transaction other).env = (system.transaction txn).env →
      Writes system other → other ≤ txn := by
  obtain ⟨ids, hchain⟩ := h.chained (system.transaction txn).env
  have hhead := hchain.innermost h.anchored htxn rfl hfound hwriter hblocked
  cases ids with
  | nil => simp at hhead
  | cons first rest =>
      obtain rfl : first = txn := by simpa using hhead
      refine ⟨(hchain.writes_iff h.anchored rfl).mpr List.mem_cons_self, fun other henv hother ↦ ?_⟩
      rcases List.mem_cons.mp ((hchain.writes_iff h.anchored henv).mp hother) with rfl | hmem
      · exact Nat.le_refl _
      · exact Nat.le_of_lt (hchain.nested.lt h.anchored other hmem)

/-- A transaction nested in one that writes does not only read. -/
theorem Sound.writer_of_lineage (h : Sound system) {outer : TxnId} (houter : Writes system outer)
    (hmem : outer ∈ system.lineage txn) :
    txn < system.transactions.length ∧ (system.transaction txn).readOnly = false := by
  rcases eq_or_ne outer txn with rfl | hne
  · exact ⟨houter.1, (h.of_writes houter).1⟩
  rw [lineage_eq h.anchored] at hmem
  cases hparent : (system.transaction txn).parent with
  | none => simp [hparent, hne] at hmem
  | some parent =>
      refine ⟨lt_of_parent hparent, ?_⟩
      cases hreader : (system.transaction txn).readOnly with
      | false => rfl
      | true => simp [h.attended.root txn hreader] at hparent

/-- What the engine finds for a transaction that does not only read is a writer. -/
theorem Sound.writer_of_found (h : Sound system) (htxn : txn < system.transactions.length)
    (hwriter : (system.transaction txn).readOnly = false) {found : Engine.Txn}
    (hfound : (system.engineOf txn).txn? (system.native txn) = some found) :
    found.readOnly = false := by
  cases hreader : found.readOnly with
  | false => rfl
  | true =>
      have hmem := (h.anchored.roster _).mem_reading hfound hreader
      have howner := (h.attended.readers _).owner h.anchored htxn rfl hmem
        (Engine.handle_of_txn? hfound)
      exact absurd (hwriter.symm.trans howner.1) (by simp)

/-- The parent of a transaction that begins writes. -/
theorem Sound.writes_of_begin (h : Sound system) {parent : TxnId} {flags : TxnFlags}
    {thread native : Nat} {engine : Engine}
    (hentrance : Entrance system env (some parent) flags thread native engine after) :
    Writes system parent := by
  obtain ⟨houter, hfaultParent⟩ := (of_beginFault hentrance.fault).2 parent rfl
  subst houter
  cases hentrance.began with
  | reading _ _ hparent | root hparent => simp at hparent
  | nested hparent hflags htxn hwriter hblocked =>
      obtain rfl := Option.some.inj hparent
      refine ⟨lt_of_lifecycleFault hfaultParent, _, ?_, Engine.handle_of_txn? htxn⟩
      exact (h.anchored.roster _).mem_writers htxn hwriter

/-- A transaction that an action has begun inside another is nested in one that writes. -/
theorem Sound.writes_parent (h : Sound system) {parent : TxnId}
    (hnew : system.transactions.length ≤ txn)
    (hparent : ((system.after action).transaction txn).parent = some parent) :
    Writes system parent := by
  obtain ⟨rfl, env, outer, flags, thread, native, engine, -, hentrance⟩ :=
    (h.transition action).of_new hnew (lt_of_parent hparent)
  rw [hentrance.transaction_eq] at hparent
  obtain rfl : outer = some parent := hparent
  exact h.writes_of_begin hentrance

/-- A successful commit is of a transaction that only reads, or of the innermost writer. After it
the parent is the innermost writer, and after that of a root there is none. -/
theorem Sound.commit_cases (h : Sound system) (hcommit : (system.commit txn).result = .ok ()) :
    (system.transaction txn).readOnly = true ∨ Writes system txn ∧
      match (system.transaction txn).parent with
      | some parent => Writes system parent ∧
          ∀ other, (system.transaction other).env = (system.transaction txn).env →
            Writes (system.after (.commit txn)) other → other ≤ parent
      | none => ∀ other, (system.transaction other).env = (system.transaction txn).env →
          ¬ Writes (system.after (.commit txn)) other := by
  obtain ⟨engine, hfault, hengine, hstate⟩ := commit_ok hcommit
  have htxn := lt_of_lifecycleFault hfault
  have hroster := h.anchored.roster (system.transaction txn).env
  obtain ⟨ids, hchain⟩ := h.chained (system.transaction txn).env
  have hback : ∀ {other : TxnId}, (system.transaction other).env = (system.transaction txn).env →
      Writes (system.after (.commit txn)) other → Writes system other ∧
        ∃ writer ∈ engine.writers, writer.handle = system.native other := by
    intro other henv hwrites
    have htransition := h.transition (.commit txn)
    have hother : other < system.transactions.length := htransition.length_commit ▸ hwrites.1
    refine ⟨h.writes_back hother hwrites, ?_⟩
    obtain ⟨-, writer, hwriter, hhandle⟩ := hwrites
    have hidentity := htransition.identity hother
    have hafterEnv : ((system.after (.commit txn)).transaction other).env
        = (system.transaction txn).env := (congrArg (·.1) hidentity).trans henv
    have hengine' : (system.after (.commit txn)).engine (system.transaction txn).env = engine := by
      rw [show system.after (.commit txn) = _ from hstate, engine_finish, engine_handOver,
        setEngineOf, engine_setEngine engine (h.anchored.env_lt txn htxn)]
    rw [engineOf, hafterEnv, hengine'] at hwriter
    exact ⟨writer, hwriter, hhandle.trans (congrArg (·.2.1) hidentity)⟩
  cases committed_of_commit hroster hengine with
  | @reader found hfound hreader =>
      exact .inl ((h.attended.readers _).owner h.anchored htxn rfl
        (hroster.mem_reading hfound hreader) (Engine.handle_of_txn? hfound)).1
  | @nested child outer further hwriters hhandle =>
      obtain ⟨rest, rfl, hrest⟩ := hchain.split_innermost h.anchored htxn rfl hwriters hhandle
      cases rest with
      | nil => cases hrest
      | cons parent rest =>
          have hmember : parent ∈ txn :: parent :: rest := by simp
          rw [show (system.transaction txn).parent = some parent from hchain.nested.1]
          refine .inr ⟨(hchain.writes_iff h.anchored rfl).mpr List.mem_cons_self,
            (hchain.writes_iff h.anchored (hchain.env_eq _ hmember)).mpr hmember,
            fun other henv hother ↦ ?_⟩
          -- what writes still is among the members that are left, of which the parent is the last
          obtain ⟨hbefore, writer, hwriter, hnative⟩ := hback henv hother
          have hmem : system.native other ∈ (parent :: rest).map system.native := by
            rw [← hrest, ← hnative]
            simpa [Engine.absorb] using List.mem_map_of_mem (f := Engine.Txn.handle) hwriter
          rcases List.mem_cons.mp (hchain.mem_of_native h.anchored hbefore.1 henv
            (List.subset_cons_self ..) hmem) with rfl | hfurther
          · exact Nat.le_refl _
          · exact Nat.le_of_lt (hchain.nested.2.lt h.anchored other hfurther)
  | @root found recorded image hwriters hhandle hnamed =>
      obtain ⟨rest, rfl, hrest⟩ := hchain.split_innermost h.anchored htxn rfl hwriters hhandle
      obtain rfl : rest = [] := by simpa using hrest.symm
      rw [show (system.transaction txn).parent = none from hchain.nested.1]
      refine .inr ⟨(hchain.writes_iff h.anchored rfl).mpr List.mem_cons_self,
        fun other henv hother ↦ ?_⟩
      obtain ⟨-, writer, hwriter, -⟩ := hback henv hother
      simp [Engine.endWriter] at hwriter

/-- A nested transaction whose commit succeeds was the innermost writer, and leaves its parent as
the innermost one. -/
theorem Sound.commit_nested (h : Sound system) (hcommit : (system.commit txn).result = .ok ())
    {parent : TxnId} (hparent : (system.transaction txn).parent = some parent) :
    Writes system txn ∧ Writes system parent ∧
      ∀ other, (system.transaction other).env = (system.transaction txn).env →
        Writes (system.after (.commit txn)) other → other ≤ parent := by
  rcases h.commit_cases hcommit with hreader | ⟨hwrites, hcases⟩
  · -- a transaction that only reads is nested in no other
    rw [h.attended.root txn hreader] at hparent
    cases hparent
  · rw [hparent] at hcases
    exact ⟨hwrites, hcases⟩

/-- The commit of a root that writes leaves no writer. -/
theorem Sound.commit_root (h : Sound system) (hcommit : (system.commit txn).result = .ok ())
    (hparent : (system.transaction txn).parent = none)
    (hwriter : (system.transaction txn).readOnly = false) :
    Writes system txn ∧ ∀ other, (system.transaction other).env = (system.transaction txn).env →
      ¬ Writes (system.after (.commit txn)) other := by
  rcases h.commit_cases hcommit with hreader | ⟨hwrites, hcases⟩
  · cases hwriter.symm.trans hreader
  · rw [hparent] at hcases
    exact ⟨hwrites, hcases⟩

/-- A transaction that is committed writes no more. -/
theorem Sound.not_writes_committed (h : Sound system)
    (hcommit : (system.commit txn).result = .ok ()) :
    ¬ Writes (system.after (.commit txn)) txn := by
  intro hwrites
  have htxn : txn < system.transactions.length :=
    (h.transition (.commit txn)).length_commit ▸ hwrites.1
  have hwriter := (h.of_writes (h.writes_back htxn hwrites)).1
  cases hparent : (system.transaction txn).parent with
  | none => exact (h.commit_root hcommit hparent hwriter).2 txn rfl hwrites
  | some parent =>
      exact absurd ((h.commit_nested hcommit hparent).2.2 txn rfl hwrites)
        (Nat.not_le_of_gt (h.anchored.parent_lt txn parent hparent))

end System

end MappedStore
