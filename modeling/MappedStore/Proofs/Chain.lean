import MappedStore.Proofs.Anchored

/-!
# Chains of writers

The writers that an engine has are those of one chain of transactions, each nested in the next, the
root at the end. `System.Chain` ties the two together. The root holds the writer lock as long as the
chain lasts.
-/

namespace MappedStore

/-- What an end changes about a transaction, and what nothing changes. -/
def Transaction.post (txn : Transaction) : (EnvId × Nat × Bool × Option TxnId) × TxnState × Bool :=
  (txn.identity, txn.state, txn.holdsWriter)

namespace System

variable {system after : System} {action : Action} {env : EnvId} {ids rest : List TxnId}
  {txn : TxnId}

/-- Each transaction of a list is nested in the next, and the last one in none. -/
def Nested (system : System) : List TxnId → Prop
  | [] => True
  | txn :: rest => (system.transaction txn).parent = rest.head? ∧ Nested system rest

/-- The writers of the engine of an environment are the transactions of a chain. -/
structure Chain (system : System) (env : EnvId) (ids : List TxnId) : Prop where
  handles : (system.engine env).writers.map (·.handle) = ids.map system.native
  nested : Nested system ids
  env_eq : ∀ txn ∈ ids, (system.transaction txn).env = env
  writer : ∀ txn ∈ ids, (system.transaction txn).readOnly = false
  active : ∀ txn ∈ ids, (system.transaction txn).state = .active
  holder : ∀ txn, (system.transaction txn).env = env →
    (system.transaction txn).holdsWriter = true → ids.getLast? = some txn
  locked : ids ≠ [] → (system.environment env).writerLocked = true

/-! ## Members -/

/-- A part of a chain that ends with the root is nested in the same way. -/
theorem Nested.suffix (h : Nested system ids) (hsuffix : rest <:+ ids) : Nested system rest := by
  induction ids with
  | nil => exact List.suffix_nil.mp hsuffix ▸ trivial
  | cons first ids ih =>
      rcases List.suffix_cons_iff.mp hsuffix with rfl | hsuffix
      · exact h
      · exact ih h.2 hsuffix

/-- Nesting depends on the parents only. -/
theorem Nested.congr (h : Nested system ids)
    (hparent : ∀ txn ∈ ids, (after.transaction txn).parent = (system.transaction txn).parent) :
    Nested after ids := by
  induction ids with
  | nil => trivial
  | cons first ids ih =>
      refine ⟨?_, ih h.2 fun txn htxn ↦ hparent txn (List.mem_cons_of_mem _ htxn)⟩
      rw [hparent first List.mem_cons_self]
      exact h.1

/-- The numbers in a chain fall towards the root. -/
theorem Nested.lt (h : Nested system (txn :: ids)) (hanchored : Anchored system) :
    ∀ outer ∈ ids, outer < txn := by
  induction ids generalizing txn with
  | nil => simp
  | cons first ids ih =>
      have hfirst : first < txn := hanchored.parent_lt txn first h.1
      intro outer houter
      rcases List.mem_cons.mp houter with rfl | houter
      · exact hfirst
      · exact Nat.lt_trans (ih h.2 outer houter) hfirst

/-- No transaction stands in a chain twice. -/
theorem Nested.nodup (h : Nested system ids) (hanchored : Anchored system) : ids.Nodup := by
  induction ids with
  | nil => exact .nil
  | cons first ids ih =>
      refine List.nodup_cons.mpr ⟨fun hmem ↦ ?_, ih h.2⟩
      exact Nat.lt_irrefl _ (h.lt hanchored first hmem)

/-- The part of a chain after a transaction does not have it again. -/
theorem not_mem_outer {inner outer : List TxnId} (h : (inner ++ txn :: outer).Nodup) :
    txn ∉ outer := by
  have hnodup := (List.nodup_append.mp h).2.1
  exact (List.nodup_cons.mp hnodup).1

/-- A member of a chain has a number that was given out. -/
theorem Chain.lt (h : Chain system env ids) (htxn : txn ∈ ids) :
    txn < system.transactions.length :=
  lt_of_state (h.active txn htxn) rfl

/-- The engine knows the members of a chain, as writers. -/
theorem Chain.known (h : Chain system env ids) (hanchored : Anchored system) (htxn : txn ∈ ids) :
    ∃ found ∈ (system.engine env).writers,
      (system.engine env).txn? (system.native txn) = some found ∧
        found.handle = system.native txn := by
  have hmem : system.native txn ∈ (system.engine env).writers.map (·.handle) := by
    rw [h.handles]
    exact List.mem_map_of_mem htxn
  obtain ⟨found, hfound, hhandle⟩ := List.mem_map.mp hmem
  have htxn? := (hanchored.roster env).txn?_handle (List.mem_append_left _ hfound)
  exact ⟨found, hfound, hhandle ▸ htxn?, hhandle⟩

/-- A transaction whose handle is that of a writer of its engine is a member of the chain. -/
theorem Chain.mem (h : Chain system env ids) (hanchored : Anchored system)
    (htxn : txn < system.transactions.length) (henv : (system.transaction txn).env = env)
    {writer : Engine.Txn} (hwriter : writer ∈ (system.engine env).writers)
    (hhandle : writer.handle = system.native txn) : txn ∈ ids := by
  have hmem : writer.handle ∈ ids.map system.native := by
    rw [← h.handles]
    exact List.mem_map_of_mem hwriter
  obtain ⟨other, hother, hnative⟩ := List.mem_map.mp hmem
  obtain rfl : other = txn := hanchored.native_inj other (h.lt hother) txn htxn
    ((h.env_eq other hother).trans henv.symm) (hnative.trans hhandle)
  exact hother

/-- The part of a chain that belongs to the writers after one of them. -/
theorem Chain.split (h : Chain system env ids) (hanchored : Anchored system)
    (htxn : txn < system.transactions.length) (henv : (system.transaction txn).env = env)
    {inner outer : List Engine.Txn} {writer : Engine.Txn}
    (hwriters : (system.engine env).writers = inner ++ writer :: outer)
    (hhandle : writer.handle = system.native txn) :
    ∃ before rest, ids = before ++ txn :: rest ∧ outer.map (·.handle) = rest.map system.native := by
  have hmap := h.handles
  rw [hwriters, List.map_append, List.map_cons] at hmap
  obtain ⟨before, tail, rfl, hbefore, htail⟩ := List.map_eq_append_iff.mp hmap.symm
  obtain ⟨head, rest, rfl, hhead, hrest⟩ := List.map_eq_cons_iff.mp htail
  have hmem : head ∈ before ++ head :: rest := by simp
  obtain rfl : head = txn := hanchored.native_inj head (h.lt hmem) txn htxn
    ((h.env_eq head hmem).trans henv.symm) (hhead.trans hhandle)
  exact ⟨before, rest, rfl, hrest.symm⟩

/-- The rest of a chain belongs to the writers after the innermost one. -/
theorem Chain.split_innermost (h : Chain system env ids) (hanchored : Anchored system)
    (htxn : txn < system.transactions.length) (henv : (system.transaction txn).env = env)
    {outer : List Engine.Txn} {writer : Engine.Txn}
    (hwriters : (system.engine env).writers = writer :: outer)
    (hhandle : writer.handle = system.native txn) :
    ∃ rest, ids = txn :: rest ∧ outer.map (·.handle) = rest.map system.native := by
  have hmap := h.handles
  rw [hwriters] at hmap
  obtain ⟨head, rest, rfl, hhead, hrest⟩ := List.map_eq_cons_iff.mp hmap.symm
  obtain rfl : head = txn := hanchored.native_inj head (h.lt List.mem_cons_self) txn htxn
    ((h.env_eq head List.mem_cons_self).trans henv.symm) (hhead.trans hhandle)
  exact ⟨rest, rfl, hrest.symm⟩

/-- The members of a chain are known by their handles. -/
theorem Chain.mem_of_native (h : Chain system env ids) (hanchored : Anchored system)
    (htxn : txn < system.transactions.length) (henv : (system.transaction txn).env = env)
    {part : List TxnId} (hpart : part ⊆ ids) (hnative : system.native txn ∈ part.map system.native) :
    txn ∈ part := by
  obtain ⟨member, hmember, hsame⟩ := List.mem_map.mp hnative
  have hmem := hpart hmember
  obtain rfl : member = txn := hanchored.native_inj member (h.lt hmem) txn htxn
    ((h.env_eq member hmem).trans henv.symm) hsame
  exact hmember

/-- A writer that is not blocked is the innermost one. -/
theorem Chain.innermost (h : Chain system env ids) (hanchored : Anchored system)
    (htxn : txn < system.transactions.length) (henv : (system.transaction txn).env = env)
    {found : Engine.Txn} (hfound : (system.engine env).txn? (system.native txn) = some found)
    (hwriter : found.readOnly = false) (hblocked : (system.engine env).isBlocked found = false) :
    ids.head? = some txn := by
  have hhead : (system.engine env).writers.head?.map (·.handle) = some (system.native txn) :=
    Engine.handle_of_txn? hfound ▸ (Engine.isBlocked_eq_false.mp hblocked).2 hwriter
  rw [← List.head?_map, h.handles, List.head?_map] at hhead
  obtain ⟨first, hfirst, hnative⟩ := Option.map_eq_some_iff.mp hhead
  have hmem := List.mem_of_mem_head? hfirst
  obtain rfl : first = txn := hanchored.native_inj first (h.lt hmem) txn htxn
    ((h.env_eq first hmem).trans henv.symm) hnative
  exact hfirst

/-! ## Steps -/

/-- A chain stays if its engine keeps the handles, and its members and holders stay as they are. -/
theorem Chain.keep (h : Chain system env ids)
    (hhandles : (after.engine env).writers.map (·.handle)
      = (system.engine env).writers.map (·.handle))
    (hpost : ∀ txn < system.transactions.length,
      (system.transaction txn).env = env → (system.transaction txn).readOnly = false →
      (system.transaction txn).state = .active →
      (after.transaction txn).post = (system.transaction txn).post)
    (hholder : ∀ txn, (after.transaction txn).env = env →
      (after.transaction txn).holdsWriter = true →
      (system.transaction txn).env = env ∧ (system.transaction txn).holdsWriter = true)
    (hlocked : (system.environment env).writerLocked = true →
      (after.environment env).writerLocked = true) : Chain after env ids := by
  have hmember : ∀ txn ∈ ids, (after.transaction txn).post = (system.transaction txn).post :=
    fun txn htxn ↦ hpost txn (h.lt htxn) (h.env_eq txn htxn) (h.writer txn htxn) (h.active txn htxn)
  refine ⟨?_, ?_, ?_, ?_, ?_, ?_, fun hne ↦ hlocked (h.locked hne)⟩
  · rw [hhandles, h.handles]
    refine List.map_congr_left fun txn htxn ↦ ?_
    exact (congrArg (·.1.2.1) (hmember txn htxn)).symm
  · exact h.nested.congr fun txn htxn ↦ congrArg (·.1.2.2.2) (hmember txn htxn)
  · exact fun txn htxn ↦ (congrArg (·.1.1) (hmember txn htxn)).trans (h.env_eq txn htxn)
  · exact fun txn htxn ↦ (congrArg (·.1.2.2.1) (hmember txn htxn)).trans (h.writer txn htxn)
  · exact fun txn htxn ↦ (congrArg (·.2.1) (hmember txn htxn)).trans (h.active txn htxn)
  · intro txn henv hholds
    obtain ⟨henv, hholds⟩ := hholder txn henv hholds
    exact h.holder txn henv hholds

/-- A part of a list that is not empty ends as the list does. -/
theorem getLast?_suffix {α : Type} {whole part : List α} (h : part <:+ whole) (hne : part ≠ []) :
    part.getLast? = whole.getLast? := by
  obtain ⟨before, rfl⟩ := h
  rw [List.getLast?_append]
  cases hlast : part.getLast? with
  | none => exact absurd (List.getLast?_eq_none_iff.mp hlast) hne
  | some last => rfl

/-- When a transaction ends, the chain is what is left of it further out. -/
theorem Chain.finish (h : Chain system env ids) (henv : (system.transaction txn).env = env)
    (htxn : txn < system.transactions.length) (state : TxnState)
    (hsuffix : rest <:+ ids) (hgone : txn ∉ rest)
    (hroot : rest = [] → ids = [] ∨ ids.getLast? = some txn)
    (hlength : after.transactions.length = system.transactions.length)
    (hhandles : (after.engine env).writers.map (·.handle) = rest.map system.native)
    (hpost : ∀ other, (after.transaction other).post = (system.transaction other).post)
    (hlocked : (after.environment env).writerLocked = (system.environment env).writerLocked) :
    Chain (after.finish txn state) env rest := by
  have hidentity : ∀ other, ((after.finish txn state).transaction other).identity
      = (system.transaction other).identity := fun other ↦
    (field_finish Transaction.identity (fun _ _ _ _ ↦ by rfl) after txn state other).trans
      (congrArg (·.1) (hpost other))
  have hpostOther : ∀ other ≠ txn, ((after.finish txn state).transaction other).post
      = (system.transaction other).post := fun other hne ↦
    (field_finish_of_ne Transaction.post (fun _ _ ↦ by rfl) state hne).trans (hpost other)
  have hne : ∀ other ∈ rest, other ≠ txn := fun other hother heq ↦ hgone (heq ▸ hother)
  -- The lock is only given up by the root, which is the last of the chain.
  have hnotHolder : rest ≠ [] → (system.transaction txn).holdsWriter = false := by
    intro hrest
    by_contra hholds
    have hlast := h.holder txn henv (by simpa using hholds)
    rw [← getLast?_suffix hsuffix hrest] at hlast
    exact hgone (List.mem_of_getLast? hlast)
  refine ⟨?_, ?_, ?_, ?_, ?_, ?_, ?_⟩
  · rw [engine_finish, hhandles]
    exact List.map_congr_left fun other _ ↦ (congrArg (·.2.1) (hidentity other)).symm
  · exact (h.nested.suffix hsuffix).congr fun other _ ↦ congrArg (·.2.2.2) (hidentity other)
  · exact fun other hother ↦
      (congrArg (·.1) (hidentity other)).trans (h.env_eq other (hsuffix.subset hother))
  · exact fun other hother ↦
      (congrArg (·.2.2.1) (hidentity other)).trans (h.writer other (hsuffix.subset hother))
  · exact fun other hother ↦ (congrArg (·.2.1) (hpostOther other (hne other hother))).trans
      (h.active other (hsuffix.subset hother))
  · intro other hotherEnv hholds
    by_cases hother : other = txn
    · subst hother
      have hself := field_finish_self (·.holdsWriter) (fun _ _ ↦ by rfl) state (hlength ▸ htxn)
      rw [hself] at hholds
      simp at hholds
    · have hpost := hpostOther other hother
      have hlast := h.holder other ((congrArg (·.1.1) hpost).symm.trans hotherEnv)
        ((congrArg (·.2.2) hpost).symm.trans hholds)
      by_cases hrest : rest = []
      · rcases hroot hrest with hids | hids
        · simp [hids] at hlast
        · exact absurd (Option.some.inj (hlast.symm.trans hids)) hother
      · rw [getLast?_suffix hsuffix hrest]
        exact hlast
  · intro hrest
    have hholds : (after.transaction txn).holdsWriter = false :=
      (congrArg (·.2.2) (hpost txn)).trans (hnotHolder hrest)
    rw [writerLocked_finish after txn state env fun _ ↦ hholds, hlocked]
    refine h.locked ?_
    rintro rfl
    exact hrest (List.suffix_nil.mp hsuffix)

/-! ## Transitions -/

/-- The writers of every environment form a chain. -/
def Chained (system : System) : Prop := ∀ env, ∃ ids, Chain system env ids

/-- Tags that stay make handles that stay. -/
theorem handles_of_tags {before after : List Engine.Txn}
    (h : after.map Engine.Txn.tag = before.map Engine.Txn.tag) :
    after.map (·.handle) = before.map (·.handle) := by
  have hfst := congrArg (List.map Prod.fst) h
  simpa [List.map_map, Function.comp_def, Engine.Txn.tag] using hfst

/-- What an engine keeps when it neither begins nor ends a writer: their handles. -/
def KeepsWriters (before after : Engine) : Prop :=
  after.writers.map (·.handle) = before.writers.map (·.handle)

/-- A transition that keeps the writers and the stages of all transactions keeps the chains. -/
theorem Chained.keep (h : Chained system)
    (hkeeps : ∀ env, KeepsWriters (system.engine env) (after.engine env))
    (hpost : ∀ txn, (after.transaction txn).post = (system.transaction txn).post)
    (hlocked : ∀ env, (after.environment env).writerLocked
      = (system.environment env).writerLocked) : Chained after := by
  intro env
  obtain ⟨ids, hchain⟩ := h env
  refine ⟨ids, hchain.keep (hkeeps env) (fun txn _ _ _ _ ↦ hpost txn) ?_ fun hl ↦ ?_⟩
  · intro txn henv hholds
    exact ⟨(congrArg (·.1.1) (hpost txn)).symm.trans henv,
      (congrArg (·.2.2) (hpost txn)).symm.trans hholds⟩
  · rw [hlocked]
    exact hl

/-- What the end of a transaction does to the writers of its engine: nothing if it is none of
them, and otherwise it ends that writer and all that are nested in it. -/
def EndsWriter (native : Nat) (before after : Engine) : Prop :=
  ((∀ writer ∈ before.writers, writer.handle ≠ native) ∧ KeepsWriters before after) ∨
    ∃ inner writer outer, before.writers = inner ++ writer :: outer ∧ writer.handle = native ∧
      after.writers.map (·.handle) = outer.map (·.handle)

/-- The end of a transaction leaves chains. -/
theorem Chained.finish (h : Chained system) (hanchored : Anchored system)
    (htxn : txn < system.transactions.length) (state : TxnState)
    (hends : EndsWriter (system.native txn) (system.engineOf txn)
      (after.engine (system.transaction txn).env))
    (hkeeps : ∀ env ≠ (system.transaction txn).env,
      KeepsWriters (system.engine env) (after.engine env))
    (hlength : after.transactions.length = system.transactions.length)
    (hpost : ∀ txn, (after.transaction txn).post = (system.transaction txn).post)
    (hlocked : ∀ env, (after.environment env).writerLocked
      = (system.environment env).writerLocked) : Chained (after.finish txn state) := by
  intro env
  obtain ⟨ids, hchain⟩ := h env
  by_cases henv : (system.transaction txn).env = env
  · subst henv
    rcases hends with ⟨hunknown, hkeep⟩ | ⟨inner, writer, outer, hwriters, hhandle, hafter⟩
    · refine ⟨ids, hchain.finish rfl htxn state List.suffix_rfl ?_ .inl hlength
        (hkeep.trans hchain.handles) hpost (hlocked _)⟩
      intro hmem
      obtain ⟨found, hfound, -, hhandle⟩ := hchain.known hanchored hmem
      exact hunknown found hfound hhandle
    · obtain ⟨before, rest, rfl, hrest⟩ := hchain.split hanchored htxn rfl hwriters hhandle
      refine ⟨rest, hchain.finish rfl htxn state ⟨before ++ [txn], by simp⟩
        (not_mem_outer (hchain.nested.nodup hanchored)) ?_ hlength (hafter.trans hrest) hpost
        (hlocked _)⟩
      rintro rfl
      exact .inr (by simp)
  · have hother : ∀ other, (system.transaction other).env = env →
        ((after.finish txn state).transaction other).post = (system.transaction other).post := by
      intro other hotherEnv
      have hne : other ≠ txn := fun heq ↦ henv (heq ▸ hotherEnv)
      exact (field_finish_of_ne Transaction.post (fun _ _ ↦ by rfl) state hne).trans (hpost other)
    have hafterEnv : ∀ other, ((after.finish txn state).transaction other).env
        = (system.transaction other).env := fun other ↦
      (field_finish (·.env) (fun _ _ _ _ ↦ by rfl) after txn state other).trans
        (congrArg (·.1.1) (hpost other))
    refine ⟨ids, hchain.keep ?_ (fun other _ hotherEnv _ _ ↦ hother other hotherEnv) ?_ ?_⟩
    · rw [engine_finish]
      exact hkeeps env fun heq ↦ henv heq.symm
    · intro other hotherEnv hholds
      have hsystemEnv := (hafterEnv other).symm.trans hotherEnv
      exact ⟨hsystemEnv, (congrArg (·.2.2) (hother other hsystemEnv)).symm.trans hholds⟩
    · intro hl
      have hsame : (after.transaction txn).env = (system.transaction txn).env :=
        congrArg (·.1.1) (hpost txn)
      rw [writerLocked_finish after txn state env fun heq ↦ absurd (hsame.symm.trans heq.symm) henv,
        hlocked]
      exact hl

/-! ### Engines -/

/-- The handle of a reader is that of no writer. -/
theorem not_writer_of_reader {engine : Engine} (hroster : Engine.Roster engine) {native : Nat}
    {reader : Engine.Txn} (htxn : engine.txn? native = some reader)
    (hreader : reader.readOnly = true) : ∀ writer ∈ engine.writers, writer.handle ≠ native := by
  intro writer hwriter hhandle
  have hfound := hroster.txn?_handle (List.mem_append_left _ hwriter)
  rw [hhandle, htxn] at hfound
  have hreadOnly := hroster.writers writer hwriter
  rw [← Option.some.inj hfound, hreader] at hreadOnly
  simp at hreadOnly

/-- An abort ends the writer with the handle, if there is one. -/
theorem endsWriter_of_aborted {before after : Engine} {native : Nat}
    (hroster : Engine.Roster before) (h : Engine.Aborted before native after) :
    EndsWriter native before after := by
  cases h with
  | unknown htxn heq =>
      refine .inl ⟨fun writer hwriter hhandle ↦ ?_, heq ▸ rfl⟩
      have htxn? := hroster.txn?_handle (List.mem_append_left _ hwriter)
      rw [hhandle, htxn] at htxn?
      simp at htxn?
  | @reader txn htxn hreader hwriters hreading =>
      exact .inl ⟨not_writer_of_reader hroster htxn hreader, congrArg _ hwriters⟩
  | writer htxn hwriter hsplit hinner hwriters hreading =>
      exact .inr ⟨_, _, _, hsplit, Engine.handle_of_txn? htxn, congrArg _ hwriters⟩

/-- An engine that refuses a commit ends the transaction as an abort does. -/
theorem endsWriter_of_refused {before middle : Engine} {native : Nat}
    (hroster : Engine.Roster before) (h : Engine.Refused before native middle) :
    EndsWriter native before (middle.abort native) := by
  have hmiddle := hroster.of_stays h.stays
  have hhandles := handles_of_tags h.stays.writers
  rcases endsWriter_of_aborted hmiddle (Engine.abort_cases hmiddle native).1 with
    ⟨hunknown, hkeeps⟩ | ⟨inner, writer, outer, hwriters, hhandle, hafter⟩
  · refine .inl ⟨fun writer hwriter hhandle ↦ ?_, hkeeps.trans hhandles⟩
    have hmem : native ∈ middle.writers.map (·.handle) := by
      rw [hhandles]
      exact hhandle ▸ List.mem_map_of_mem hwriter
    obtain ⟨other, hother, heq⟩ := List.mem_map.mp hmem
    exact hunknown other hother heq
  · rw [hwriters, List.map_append, List.map_cons] at hhandles
    obtain ⟨first, tail, hsplit, -, htail⟩ := List.map_eq_append_iff.mp hhandles.symm
    obtain ⟨head, last, rfl, hhead, hlast⟩ := List.map_eq_cons_iff.mp htail
    exact .inr ⟨first, head, last, hsplit, hhead.trans hhandle, hafter.trans hlast.symm⟩

/-- A commit ends the innermost writer, unless it ends a reader. -/
theorem endsWriter_of_committed {before after : Engine} {native : Nat}
    (hroster : Engine.Roster before) (h : Engine.Committed before native after) :
    EndsWriter native before after := by
  cases h with
  | @reader txn htxn hreader =>
      exact .inl ⟨not_writer_of_reader hroster htxn hreader,
        congrArg _ (Engine.endReader_cases before txn true).1⟩
  | nested hwriters hhandle => exact .inr ⟨[], _, _, hwriters, hhandle, rfl⟩
  | root image hwriters hhandle hnamed => exact .inr ⟨[], _, _, hwriters, hhandle, rfl⟩

/-- Engines of which one was replaced keep their writers if that one does. -/
theorem keepsWriters_setEngine {engine : Engine} (h : KeepsWriters (system.engine env) engine)
    (other : EnvId) :
    KeepsWriters (system.engine other) ((system.setEngine env engine).engine other) :=
  engine_setEngine_induction KeepsWriters (fun _ ↦ rfl) h other

/-- A step that keeps all transactions keeps the writers. -/
theorem KeepsWriters.of_stays {before after : Engine} (h : Engine.Stays before after) :
    KeepsWriters before after :=
  handles_of_tags h.writers

/-! ### Beginnings and stages -/

/-- A transaction that holds the writer lock has a number that was given out. -/
theorem lt_of_holdsWriter (h : (system.transaction txn).holdsWriter = true) :
    txn < system.transactions.length := by
  by_contra hge
  rw [transaction_of_length_le (Nat.le_of_not_lt hge)] at h
  simp [Transaction.ended] at h

/-- The writer lock after an entry: taken if it was, or if the new transaction takes it. -/
theorem writerLocked_enter (system : System) (entering : Transaction) (other : EnvId)
    (h : (system.environment other).writerLocked = true ∨
      other = entering.env ∧ entering.env < system.environments.length ∧
        entering.holdsWriter = true) :
    ((system.enter entering).environment other).writerLocked = true := by
  have henter : (system.enter entering).environment other =
      (system.modifyEnvironment entering.env fun environment ↦
        { environment with
          active := environment.active + 1
          writerLocked := environment.writerLocked || entering.holdsWriter }).environment other := by
    unfold enter
    dsimp only
    split <;> rfl
  rw [henter]
  by_cases hother : other = entering.env
  · subst hother
    by_cases hlt : entering.env < system.environments.length
    · rw [environment_modifyEnvironment_self _ _ hlt]
      rcases h with h | ⟨-, -, h⟩ <;> simp [h]
    · rcases h with h | ⟨-, hlt', -⟩
      · have hopen : system.environment entering.env = .absent := by
          simp [environment, List.getD_eq_getElem?_getD, Nat.le_of_not_lt hlt]
        simp [hopen, Environment.absent] at h
      · exact absurd hlt' hlt
  · rw [environment_modifyEnvironment_of_ne _ _ hother]
    rcases h with h | ⟨heq, -⟩
    · exact h
    · exact absurd heq hother

/-- A begin that adds no writer to an environment leaves its chain. -/
theorem Chain.entered (h : Chain system env ids) {engine : Engine} {entering : Transaction}
    {place : EnvId}
    (hkeeps : KeepsWriters (system.engine env) ((system.setEngine place engine).engine env))
    (hentering : entering.env = env → entering.holdsWriter = false) :
    Chain ((system.setEngine place engine).enter entering) env ids := by
  refine h.keep ?_ (fun other hlt _ _ _ ↦ field_enter Transaction.post (fun _ _ ↦ by rfl) entering hlt)
    ?_ fun hl ↦ ?_
  · rw [engine_enter]
    exact hkeeps
  · intro other henv hholds
    have houtcome := (system.setEngine place engine).enter_outcome entering other
    generalize ((system.setEngine place engine).enter entering).transaction other = found
      at houtcome henv hholds
    cases houtcome with
    | kept => exact ⟨henv, hholds⟩
    | entered => simp [hentering henv] at hholds
    | beyond => cases hholds
  · refine writerLocked_enter _ _ _ (.inl ?_)
    exact (field_setEngine (·.writerLocked) (fun _ _ ↦ by rfl) system place engine env).trans hl

/-- A begin of a writer prolongs the chain. -/
theorem Chain.cons (h : Chain system env ids) {engine : Engine} {entering : Transaction}
    (henvLt : env < system.environments.length)
    (hhandles : engine.writers.map (·.handle)
      = entering.native :: (system.engine env).writers.map (·.handle))
    (henv : entering.env = env) (hwriter : entering.readOnly = false)
    (hactive : entering.state = .active) (hparent : entering.parent = ids.head?)
    (hholds : entering.holdsWriter = true ↔ ids = []) :
    Chain ((system.setEngine env engine).enter entering) env (system.transactions.length :: ids) := by
  have houtcome := (system.setEngine env engine).enter_outcome entering
  have hnew : ((system.setEngine env engine).enter entering).transaction system.transactions.length
      = entering := transaction_enter (system.setEngine env engine) entering
  have hmember : ∀ other ∈ ids,
      (((system.setEngine env engine).enter entering).transaction other).post
        = (system.transaction other).post := fun other hother ↦
    field_enter Transaction.post (fun _ _ ↦ by rfl) entering (h.lt hother)
  have hengine : ((system.setEngine env engine).enter entering).engine env = engine := by
    rw [engine_enter, engine_setEngine engine henvLt]
  have hlocked := writerLocked_enter (system.setEngine env engine) entering env
  -- From here on only these facts matter, and not how the system has come about.
  generalize (system.setEngine env engine).enter entering = after at *
  refine ⟨?_, ⟨?_, ?_⟩, ?_, ?_, ?_, ?_, fun _ ↦ hlocked ?_⟩
  · rw [hengine, hhandles, h.handles, List.map_cons, native, hnew]
    congr 1
    exact List.map_congr_left fun other hother ↦ (congrArg (·.1.2.1) (hmember other hother)).symm
  · rw [hnew, hparent]
  · exact h.nested.congr fun other hother ↦ congrArg (·.1.2.2.2) (hmember other hother)
  · refine List.forall_mem_cons.mpr ⟨hnew.symm ▸ henv, fun other hother ↦ ?_⟩
    exact (congrArg (·.1.1) (hmember other hother)).trans (h.env_eq other hother)
  · refine List.forall_mem_cons.mpr ⟨hnew.symm ▸ hwriter, fun other hother ↦ ?_⟩
    exact (congrArg (·.1.2.2.1) (hmember other hother)).trans (h.writer other hother)
  · refine List.forall_mem_cons.mpr ⟨hnew.symm ▸ hactive, fun other hother ↦ ?_⟩
    exact (congrArg (·.2.1) (hmember other hother)).trans (h.active other hother)
  · intro other hotherEnv hotherHolds
    have hother := houtcome other
    generalize after.transaction other = found at hother hotherEnv hotherHolds
    cases hother with
    | kept =>
        have hlast := h.holder other hotherEnv hotherHolds
        rw [← hlast]
        exact List.getLast?_cons_of_ne_nil (by rintro rfl; simp at hlast)
    | entered =>
        rw [hholds.mp hotherHolds]
        rfl
    | beyond => cases hotherHolds
  · by_cases hids : ids = []
    · refine .inr ⟨henv.symm, ?_, hholds.mpr hids⟩
      rw [henv, setEngine, length_modifyEnvironment]
      exact henvLt
    · exact .inl ((field_setEngine (·.writerLocked) (fun _ _ ↦ by rfl) system env engine env).trans
        (h.locked hids))

/-- A begin prolongs the chain of its environment, unless it begins a reader. -/
theorem Chained.began (h : Chained system) (hanchored : Anchored system) {parent : Option TxnId}
    {flags : TxnFlags} {thread native : Nat} {engine : Engine}
    (hentrance : Entrance system env parent flags thread native engine after) : Chained after := by
  have henvLt := hentrance.env_lt
  have houter := (of_beginFault hentrance.fault).2
  obtain rfl := hentrance.after_eq
  intro other
  obtain ⟨ids, hchain⟩ := h other
  by_cases hother : other = env
  · subst hother
    cases hentrance.began with
    | reading readers reader hparent hflags =>
        refine ⟨ids, hchain.entered ?_ fun _ ↦ by simp [entrant, hflags]⟩
        exact keepsWriters_setEngine (by rfl) other
    | root hparent hflags =>
        have hnone : parent = none := by simpa using hparent
        have hids : ids = [] := by
          by_contra hne
          simpa [hentrance.unlocked hflags hnone] using hchain.locked hne
        exact ⟨_, hchain.cons henvLt rfl rfl hflags rfl (by simp [entrant, hnone, hids])
          (by simp [entrant, hflags, hnone, hids])⟩
    | @nested outer txn hparent hflags htxn hwriterTxn hblocked =>
        obtain ⟨outerId, rfl, rfl⟩ := Option.map_eq_some_iff.mp hparent
        obtain ⟨houterEnv, houterFault⟩ := houter outerId rfl
        have hhead := hchain.innermost hanchored (lt_of_lifecycleFault houterFault) houterEnv htxn
          hwriterTxn hblocked
        refine ⟨_, hchain.cons henvLt rfl rfl hflags rfl hhead.symm ?_⟩
        have hne : ids ≠ [] := by
          rintro rfl
          simp at hhead
        simp [entrant, hne]
  · refine ⟨ids, hchain.entered ?_ fun henv ↦ absurd henv.symm hother⟩
    rw [engine_setEngine_of_ne engine hother]
    rfl

/-- A stage of life of a transaction that is no active writer is no concern of the chains. -/
theorem Chained.setState (h : Chained system) {engine : Engine}
    (hstays : Engine.Stays (system.engineOf txn) engine) (state : TxnState)
    (hother : (system.transaction txn).readOnly = true ∨ (system.transaction txn).state = .reset) :
    Chained ((system.setEngineOf txn engine).setState txn state) := by
  intro env
  obtain ⟨ids, hchain⟩ := h env
  refine ⟨ids, hchain.keep ?_ ?_ ?_ ?_⟩
  · exact keepsWriters_setEngine (KeepsWriters.of_stays hstays) env
  · intro other hlt henv hwriter hactive
    have hne : other ≠ txn := by
      rintro rfl
      rcases hother with hreader | hreset
      · simp [hwriter] at hreader
      · simp [hactive] at hreset
    exact congrArg _ (transaction_modifyTransaction_of_ne (system.setEngineOf txn engine) _ hne)
  · intro other henv hholds
    have hsame : ∀ {α : Type} (field : Transaction → α),
        (∀ before, field { before with state := state } = field before) →
          field (((system.setEngineOf txn engine).setState txn state).transaction other)
            = field (system.transaction other) := fun field hfield ↦
      field_modifyTransaction field hfield (system.setEngineOf txn engine) txn other
    exact ⟨(hsame (·.env) fun _ ↦ by rfl).symm.trans henv,
      (hsame (·.holdsWriter) fun _ ↦ by rfl).symm.trans hholds⟩
  · intro hl
    exact (field_setEngine (·.writerLocked) (fun _ _ ↦ by rfl) system _ engine env).trans hl

/-- Uses of the engine and records of opens and drops are no concern of the chains. -/
theorem Chained.recorded (h : Chained system) {engine : Engine}
    (hkeeps : KeepsWriters (system.engine env) engine)
    (hengine : ∀ other, after.engine other = (system.setEngine env engine).engine other)
    (hpost : ∀ txn, (after.transaction txn).post = (system.transaction txn).post)
    (hlocked : ∀ other, (after.environment other).writerLocked
      = ((system.setEngine env engine).environment other).writerLocked) : Chained after := by
  refine h.keep (fun other ↦ ?_) hpost fun other ↦ ?_
  · rw [hengine]
    exact keepsWriters_setEngine hkeeps other
  · rw [hlocked]
    exact field_setEngine (·.writerLocked) (fun _ _ ↦ by rfl) system env engine other

/-- Setting an engine is no concern of the chains if it keeps the writers. -/
theorem Chained.setEngine (h : Chained system) {engine : Engine}
    (hkeeps : KeepsWriters (system.engine env) engine) : Chained (system.setEngine env engine) :=
  h.recorded hkeeps (fun _ ↦ rfl) (fun _ ↦ rfl) fun _ ↦ rfl

/-- Changing what a transaction has opened and dropped is no concern of the chains. -/
theorem Chained.modifyTransaction (h : Chained system) {change : Transaction → Transaction}
    (hchange : ∀ before, (change before).post = before.post) :
    Chained (system.modifyTransaction txn change) :=
  h.keep (fun _ ↦ rfl) (fun other ↦ field_modifyTransaction _ hchange system txn other)
    fun _ ↦ rfl

/-- Changing what an environment has given out or retains is no concern of the chains. -/
theorem Chained.modifyEnvironment (h : Chained system) {change : Environment → Environment}
    (hengine : ∀ before, (change before).engine = before.engine)
    (hlocked : ∀ before, (change before).writerLocked = before.writerLocked) :
    Chained (system.modifyEnvironment env change) := by
  refine h.keep (fun other ↦ ?_) (fun _ ↦ rfl) fun other ↦ ?_
  · exact congrArg (fun engine : Engine ↦ engine.writers.map (·.handle))
      (field_modifyEnvironment (·.engine) hengine system env other)
  · exact field_modifyEnvironment (·.writerLocked) hlocked system env other

/-- Files are no concern of the chains. -/
theorem Chained.files (h : Chained system) (files : Files.Tree) :
    Chained { system with files := files } :=
  h.keep (fun _ ↦ rfl) (fun _ ↦ rfl) fun _ ↦ rfl

/-- A new environment has no chain yet, and leaves the others. -/
theorem Chained.opened (h : Chained system) (hanchored : Anchored system)
    (hbefore : ∀ env < system.environments.length,
      after.environment env = system.environment env)
    (hnew : ∀ env, system.environments.length ≤ env → Engine.Newborn (after.engine env))
    (htransactions : after.transactions = system.transactions) : Chained after := by
  have htransaction : ∀ txn, after.transaction txn = system.transaction txn :=
    transaction_congr htransactions
  intro env
  rcases Nat.lt_or_ge env system.environments.length with hlt | hge
  · obtain ⟨ids, hchain⟩ := h env
    refine ⟨ids, hchain.keep ?_ (fun txn _ _ _ _ ↦ congrArg _ (htransaction txn)) ?_ fun hl ↦ ?_⟩
    · rw [engine, engine, hbefore env hlt]
    · intro txn henv hholds
      rw [htransaction] at henv hholds
      exact ⟨henv, hholds⟩
    · rw [hbefore env hlt]
      exact hl
  · refine ⟨[], ?_, trivial, by simp, by simp, by simp, ?_, fun hne ↦ absurd rfl hne⟩
    · rw [(hnew env hge).writers]
      rfl
    · intro txn henv hholds
      rw [htransaction] at henv hholds
      have htxn : txn < system.transactions.length := by
        by_contra hout
        rw [transaction_of_length_le (Nat.le_of_not_lt hout)] at hholds
        simp [Transaction.ended] at hholds
      have hlt := hanchored.env_lt txn htxn
      rw [henv] at hlt
      exact absurd hlt (Nat.not_lt.mpr hge)

/-- The end of a transaction leaves chains, whatever its engine makes of it. -/
theorem Chained.ended (h : Chained system) (hanchored : Anchored system)
    (htxn : txn < system.transactions.length) (state : TxnState) {engine : Engine}
    (hends : EndsWriter (system.native txn) (system.engineOf txn) engine)
    (hlength : after.transactions.length = system.transactions.length)
    (hengine : ∀ env, after.engine env = (system.setEngineOf txn engine).engine env)
    (hpost : ∀ txn, (after.transaction txn).post = (system.transaction txn).post)
    (hlocked : ∀ env, (after.environment env).writerLocked
      = ((system.setEngineOf txn engine).environment env).writerLocked) :
    Chained (after.finish txn state) := by
  refine h.finish hanchored htxn state ?_ (fun env hne ↦ ?_) hlength hpost fun env ↦ ?_
  · rw [hengine, setEngineOf, engine_setEngine engine (hanchored.env_lt txn htxn)]
    exact hends
  · rw [hengine, setEngineOf, engine_setEngine_of_ne engine hne]
    rfl
  · rw [hlocked]
    exact field_setEngine (·.writerLocked) (fun _ _ ↦ by rfl) system _ engine env

/-- A transition leaves chains. -/
theorem Chained.transition (h : Chained system) (hanchored : Anchored system)
    (htransition : Transition system action after) : Chained after := by
  have hroster := hanchored.roster
  have hopened : ∀ {txn : TxnId} {name : Option Bytes} {flags : DbFlags} {slot : Nat}
      {engine : Engine}, (system.engineOf txn).openDatabase (system.native txn) name flags
        = (.ok slot, engine) → Chained (system.setEngineOf txn engine) := by
    intro txn name flags slot engine hopen
    have hused := Engine.use_used (system.engineOf txn) (system.native txn)
      (.openDatabase name flags)
    rw [Engine.use, hopen] at hused
    exact h.setEngine (.of_stays ((hroster _).stays_used hused))
  cases htransition with
  | idle => exact h
  | files action files => exact h.files files
  | @openedEnvironment path flags config kind engine files hopen =>
      have htransition : Transition system (.openEnvironment path flags config kind) _ :=
        .openedEnvironment hopen
      exact h.opened hanchored (fun env ↦ environment_append files _)
        (fun env henv ↦ (htransition.newborn henv).1) rfl
  | closed files hactive =>
      exact (h.modifyEnvironment (fun _ ↦ by rfl) fun _ ↦ by rfl).files files
  | aside files haction haside =>
      obtain ⟨readers, next, -, rfl⟩ := haside
      exact (h.setEngine (by rfl)).files files
  | used use haction hfault =>
      exact h.setEngine (.of_stays ((hroster _).stays_used (Engine.use_used _ _ use)))
  | reopened hfault hopen hlive => exact (hopened hopen).modifyTransaction fun _ ↦ by rfl
  | opened hfault hopen hlive =>
      exact ((hopened hopen).modifyEnvironment (fun _ ↦ by rfl) fun _ ↦ by rfl).modifyTransaction
        fun _ ↦ by rfl
  | @dropped txn database engine hfault henv' hlive hslot hdrop =>
      have hset : Chained (system.setEngineOf txn engine) :=
        h.setEngine (.of_stays ((hroster _).stays_used (used_of_drop hdrop)))
      exact hset.modifyTransaction fun _ ↦ by rfl
  | began hfault hunlocked hanswer => exact h.began hanchored ⟨hfault, hunlocked, hanswer, rfl⟩
  | committed hfault hcommit =>
      refine h.ended hanchored (lt_of_lifecycleFault hfault) .committed
        (endsWriter_of_committed (hroster _) (committed_of_commit (hroster _) hcommit))
        (length_handOver _ _) (engine_handOver _ _) (fun other ↦ ?_) fun env ↦ ?_
      · exact field_handOver Transaction.post (fun _ _ _ ↦ by rfl) _ _ other
      · exact field_environment_handOver (·.writerLocked) (fun _ _ ↦ by rfl) _ _ env
  | commitFailed hfault hcommit =>
      obtain ⟨middle, hrefused, rfl⟩ := refused_of_commit (hroster _) hcommit
      exact h.ended hanchored (lt_of_lifecycleFault hfault) .aborted
        (endsWriter_of_refused (hroster _) hrefused) rfl (fun _ ↦ rfl) (fun _ ↦ rfl) fun _ ↦ rfl
  | @discarded action txn haction hstate =>
      exact h.ended hanchored (lt_of_state rfl hstate) .aborted
        (endsWriter_of_aborted (hroster _) (Engine.abort_cases (hroster _) _).1) rfl
        (fun _ ↦ rfl) (fun _ ↦ rfl) fun _ ↦ rfl
  | @reset txn hfault hreader =>
      have hreset := Engine.reset_cases (system.engineOf txn) (system.native txn)
      exact h.setState ((hroster _).stays_reset hreset) .reset (.inl hreader)
  | renewed hstate hrenew =>
      exact h.setState ((hroster _).stays_renewed (renewed_of_renew hrenew)) .active
        (.inr hstate)

/-- There are no writers before any environment was opened. -/
theorem chained_start (checks : Bool) (files : Files.Tree) :
    Chained { checks := checks, files := files } :=
  fun _ ↦ ⟨[], rfl, trivial, nofun, nofun, nofun,
    fun _ _ h ↦ by simp [transaction, Transaction.ended] at h, fun hne ↦ absurd rfl hne⟩

end System

end MappedStore
