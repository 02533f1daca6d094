import MappedStore.Proofs.Engine.Holding

/-!
# Levels of nested writers

The write transactions of an engine, from the innermost to the root, hold the contents of a stack
(`Engine.Levels`). A use of the innermost one changes the top of the stack, a nested begin pushes a
copy of it, a nested commit puts it in the place of the one below, and the abort of a nested
transaction discards it with all that lie above.
-/

namespace MappedStore.Engine

variable {setting : Setting} {engine result : Engine} {txn parent after : Txn}
  {inner outer : List Txn} {handle slot : Nat} {contents top : Contents} {rest : List Contents}

/-! ## Marks of opened slots -/

/-- A transaction that has not opened any named slot. -/
def Txn.OpensNone (txn : Txn) : Prop :=
  ∀ slot content, slot ≠ mainSlot → txn.slot? slot = some content → content.fresh = false

/-- A transaction in which the slots that the root has opened count as opened. -/
def Txn.OpensMade (setting : Setting) (txn : Txn) : Prop :=
  ∀ slot content, slot ≠ mainSlot → setting.used slot → setting.made slot →
    txn.slot? slot = some content → content.fresh = true

/-- A chain of writers in which only the root has opened slots. -/
def Marked (setting : Setting) : List Txn → Prop
  | [] => True
  | [root] => root.OpensMade setting
  | writer :: parent :: outer => writer.OpensNone ∧ Marked setting (parent :: outer)

/-- The outer part of such a chain is one. -/
theorem Marked.tail (h : Marked setting (txn :: outer)) : Marked setting outer := by
  cases outer with
  | nil => trivial
  | cons parent outer => exact h.2

/-- The part of such a chain from one of its members outwards is one. -/
theorem Marked.suffix (h : Marked setting (inner ++ outer)) : Marked setting outer := by
  induction inner with
  | nil => exact h
  | cons head tail ih => exact ih h.tail

/-- The members of such a chain that are not the root have not opened any slot. -/
theorem Marked.opensNone (h : Marked setting (inner ++ outer)) (houter : outer ≠ []) :
    ∀ writer ∈ inner, writer.OpensNone := by
  induction inner with
  | nil => simp
  | cons head tail ih =>
      intro writer hwriter
      rcases List.mem_cons.mp hwriter with rfl | hwriter
      · cases htail : tail ++ outer with
        | nil => exact absurd (List.append_eq_nil_iff.mp htail).2 houter
        | cons parent outer =>
            rw [List.cons_append, htail] at h
            exact h.1
      · exact ih h.tail writer hwriter

/-- A member of such a chain may be exchanged for another with the same marks. -/
theorem Marked.replace (h : Marked setting (txn :: outer))
    (hback : ∀ slot content, slot ≠ mainSlot → after.slot? slot = some content →
      ∃ before, txn.slot? slot = some before ∧ content.fresh = before.fresh) :
    Marked setting (after :: outer) := by
  cases outer with
  | nil =>
      intro slot content hnamed hused hmade hcontent
      obtain ⟨before, hbefore, hfresh⟩ := hback slot content hnamed hcontent
      exact hfresh.trans (h slot before hnamed hused hmade hbefore)
  | cons parent outer =>
      refine ⟨fun slot content hnamed hcontent ↦ ?_, h.2⟩
      obtain ⟨before, hbefore, hfresh⟩ := hback slot content hnamed hcontent
      exact hfresh.trans (h.1 slot before hnamed hbefore)

/-- A use opens no slots. -/
theorem Txn.Uses.fresh_back {slots : SlotTable} {content : TxnSlot} {other : Nat}
    (h : Txn.Uses slots slot txn after) (hnamed : other ≠ mainSlot)
    (hcontent : after.slot? other = some content) :
    ∃ before, txn.slot? other = some before ∧ content.fresh = before.fresh := by
  by_cases hsame : other = slot
  · subst hsame
    rcases other with _ | _ | index
    · simp [slot?] at hcontent
    · exact absurd rfl hnamed
    · have hlt : index < txn.named.length := h.length ▸ (List.getElem?_eq_some_iff.mp hcontent).1
      obtain ⟨content', hcontent', hfollows⟩ := h.slot?_self hnamed (List.getElem?_eq_getElem hlt)
      obtain rfl := Option.some.inj (hcontent.symm.trans hcontent')
      exact ⟨_, List.getElem?_eq_getElem hlt, hfollows.fresh⟩
  · exact ⟨content, (h.slot?_of_ne hsame hnamed) ▸ hcontent, rfl⟩

/-! ## The invariant -/

/-- The writers of an engine hold the contents of a stack, the innermost the top. -/
structure Levels (setting : Setting) (engine : Engine) (stack : List Contents) : Prop where
  slots : engine.slots = setting.slots
  snapshot : engine.image.snapshot = setting.snapshot
  keeps : List.Forall₂ (fun contents writer ↦ Txn.Keeps setting contents writer) stack engine.writers
  marked : Marked setting engine.writers

/-- The innermost writer holds the top of the stack. -/
theorem Levels.innermost (h : Levels setting engine (top :: rest)) :
    ∃ writer outer, engine.writers = writer :: outer ∧ writer.Keeps setting top ∧
      List.Forall₂ (fun contents writer ↦ Txn.Keeps setting contents writer) rest outer := by
  have hkeeps := h.keeps
  cases hwriters : engine.writers with
  | nil => simp [hwriters] at hkeeps
  | cons writer outer =>
      rw [hwriters, List.forall₂_cons] at hkeeps
      exact ⟨writer, outer, rfl, hkeeps⟩

/-- The innermost writer is found under its handle. -/
theorem Roster.txn?_innermost (h : Roster engine) (hwriters : engine.writers = txn :: outer) :
    engine.txn? txn.handle = some txn ∧ txn.readOnly = false := by
  have hmem : txn ∈ engine.writers := by simp [hwriters]
  exact ⟨h.txn?_handle (List.mem_append_left _ hmem), h.writers txn hmem⟩

/-! ## Uses -/

/-- A use of the innermost writer changes the top of the stack to what it then holds. -/
theorem Levels.used (h : Levels setting engine (top :: rest)) (hroster : Roster engine)
    (hwriters : engine.writers = txn :: outer) (huses : Txn.Uses setting.slots slot txn after)
    (hkeeps : after.Keeps setting contents) :
    Levels setting (engine.replace after) (contents :: rest) := by
  have hreplaced := hroster.replace_innermost hwriters huses.kin.handle
  have hold := h.keeps
  rw [hwriters, List.forall₂_cons] at hold
  refine ⟨h.slots, h.snapshot, ?_, ?_⟩
  · rw [hreplaced]
    exact .cons hkeeps hold.2
  · rw [hreplaced]
    exact Marked.replace (hwriters ▸ h.marked) fun _ _ hnamed hcontent ↦
      huses.fresh_back hnamed hcontent

/-! ## Nested transactions -/

/-- A nested transaction is a twin of its parent. -/
theorem twin_nested (txn : Txn) (handle : Nat) : Txn.Keeps.Twin txn
    { txn with handle := handle, named := txn.named.map ({ · with fresh := false }) } where
  readOnly := rfl
  idle := rfl
  broken := rfl
  main := rfl
  tables := rfl
  named := by simp
  changed := id

/-- What is handed to the parent is a twin of what was nested in it. -/
theorem twin_absorb (parent txn : Txn) : Txn.Keeps.Twin txn (absorb parent txn) where
  readOnly := rfl
  idle := rfl
  broken := rfl
  main := rfl
  tables := rfl
  named := by
    refine List.ext_getElem? fun index ↦ ?_
    simp only [absorb, List.getElem?_map, List.getElem?_mapIdx]
    cases txn.named[index]? <;> rfl
  changed hchanged := by simp [absorb, hchanged]

/-- A nested begin pushes a copy of the top of the stack. Its parent is the innermost writer. -/
theorem Levels.nested (h : Levels setting engine (top :: rest)) (hroster : Roster engine)
    {outerHandle : Nat} {flags : TxnFlags}
    (hbegan : Began engine (some outerHandle) flags handle result) :
    Levels setting result (top :: top :: rest) ∧
      engine.writers.head?.map (·.handle) = some outerHandle ∧
      result.writers.map (·.handle) = handle :: engine.writers.map (·.handle) := by
  cases hbegan with
  | reading readers reader hparent => simp at hparent
  | root hparent => simp at hparent
  | nested hparent hflags htxn hwriter hblocked =>
      obtain rfl := Option.some.inj hparent
      obtain ⟨outer, hwriters⟩ := hroster.innermost htxn hwriter hblocked
      have hold := h.keeps
      have hmarked := h.marked
      rw [hwriters] at hold hmarked
      obtain ⟨hkeeps, -⟩ := List.forall₂_cons.mp hold
      refine ⟨⟨h.slots, h.snapshot, ?_, ?_⟩, by simp [hwriters, handle_of_txn? htxn], rfl⟩
      · rw [hwriters]
        exact .cons (hkeeps.twin (twin_nested _ _)) hold
      · rw [hwriters]
        refine ⟨fun slot content hnamed hcontent ↦ ?_, hmarked⟩
        rcases slot with _ | _ | index
        · simp [Txn.slot?] at hcontent
        · exact absurd rfl hnamed
        · simp only [Txn.slot?, List.getElem?_map, Option.map_eq_some_iff] at hcontent
          obtain ⟨before, -, rfl⟩ := hcontent
          rfl

/-- If a nested transaction has not opened any slot, the slots that count as opened after its commit
are those of the parent. -/
theorem fresh_absorb (hnone : txn.OpensNone) {index : Nat} {content : TxnSlot}
    (hcontent : (absorb parent txn).named[index]? = some content) :
    content.fresh = (parent.named.getD index {}).fresh := by
  simp only [absorb, List.getElem?_mapIdx, Option.map_eq_some_iff] at hcontent
  obtain ⟨own, hown, rfl⟩ := hcontent
  have hfresh : own.fresh = false := hnone (index + 2) own (by simp [mainSlot]) hown
  simp [hfresh]

/-- A commit of a nested transaction leaves a chain in which only the root has opened slots. -/
theorem Marked.absorb (h : Marked setting (txn :: parent :: outer))
    (hparent : parent.Keeps setting contents) : Marked setting (absorb parent txn :: outer) := by
  cases outer with
  | nil =>
      intro slot content hnamed hused hmade hcontent
      rcases slot with _ | _ | index
      · simp [Txn.slot?] at hcontent
      · exact absurd rfl hnamed
      · obtain ⟨table, hsees, -⟩ := hparent.sees hused
        obtain ⟨before, hbefore⟩ := Option.ne_none_iff_exists'.mp (Txn.slot?_of_sees hsees)
        rw [fresh_absorb h.1 hcontent, List.getD_eq_getElem?_getD,
          show parent.named[index]? = some before from hbefore]
        exact h.2 (index + 2) before hnamed hused hmade hbefore
  | cons outermost outer =>
      refine ⟨fun slot content hnamed hcontent ↦ ?_, h.2.2⟩
      rcases slot with _ | _ | index
      · simp [Txn.slot?] at hcontent
      · exact absurd rfl hnamed
      · rw [fresh_absorb h.1 hcontent, List.getD_eq_getElem?_getD]
        cases hbefore : parent.named[index]? with
        | none => rfl
        | some before => exact h.2.1 (index + 2) before hnamed hbefore

/-- The commit of a nested transaction puts the top of the stack in the place of the one below. -/
theorem Levels.committed (h : Levels setting engine (top :: contents :: rest))
    (hroster : Roster engine) (hwriters : engine.writers = txn :: outer)
    (hcommit : engine.commit txn.handle = (.ok (), result)) :
    Levels setting result (top :: rest) ∧
      result.writers.map (·.handle) = (engine.writers.map (·.handle)).tail := by
  have hold := h.keeps
  have hmarked := h.marked
  rw [hwriters] at hold hmarked
  obtain ⟨hkeeps, hrest⟩ := List.forall₂_cons.mp hold
  cases outer with
  | nil => simp at hrest
  | cons parent tail =>
      obtain ⟨hparent, htail⟩ := List.forall₂_cons.mp hrest
      obtain ⟨htxn, hwriter⟩ := hroster.txn?_innermost hwriters
      have hresult : result = { engine with writers := absorb parent txn :: tail } := by
        simp [commit, htxn, hwriter, hwriters, commitWriter, hkeeps.broken] at hcommit
        exact hcommit.symm
      subst hresult
      exact ⟨⟨h.slots, h.snapshot, .cons (hkeeps.twin (twin_absorb parent txn)) htail,
        hmarked.absorb hparent⟩, by simp [hwriters, absorb]⟩

/-! ## Aborts -/

/-- Aborting writers that have not opened any slot, up to one that is not the root, ends them and
leaves the table of slots. -/
theorem abortWriters_nested {inner : List Txn} (hhandle : txn.handle = handle)
    (hinner : ∀ other ∈ inner, other.handle ≠ handle) (houter : outer ≠ [])
    (hnone : ∀ writer ∈ inner ++ [txn], writer.OpensNone) (engine : Engine) :
    engine.abortWriters handle (inner ++ txn :: outer) = { engine with writers := outer } := by
  have hdiscard : ∀ writer ∈ inner ++ [txn], engine.slots.discard writer.named = engine.slots := by
    refine fun writer hwriter ↦ discard_of_not_fresh _ fun index ↦ ?_
    rw [List.getD_eq_getElem?_getD]
    cases hcontent : writer.named[index]? with
    | none => rfl
    | some content => exact hnone writer hwriter (index + 2) content (by simp [mainSlot]) hcontent
  induction inner with
  | nil =>
      have hkept := hdiscard txn (by simp)
      simp [abortWriters, hhandle, hkept, houter]
  | cons head tail ih =>
      have hkept := hdiscard head (by simp)
      have hrest : (tail ++ txn :: outer).isEmpty = false := by simp
      simp only [List.cons_append, abortWriters, hkept, hrest, Bool.false_eq_true, if_false,
        if_neg (hinner head List.mem_cons_self)]
      exact ih (fun other hother ↦ hinner other (List.mem_cons_of_mem _ hother))
        (fun writer hwriter ↦ hnone writer (List.mem_cons_of_mem _ hwriter))
        fun writer hwriter ↦ hdiscard writer (List.mem_cons_of_mem _ hwriter)

/-- The abort of a transaction that is not the root discards it and all that lie above. -/
theorem Levels.aborted {stack : List Contents} (h : Levels setting engine stack)
    (hroster : Roster engine) (hwriters : engine.writers = inner ++ txn :: outer)
    (houter : outer ≠ []) : Levels setting (engine.abort txn.handle) (stack.drop (inner.length + 1)) ∧
      (engine.abort txn.handle).writers = outer := by
  have hmem : txn ∈ engine.writers := by simp [hwriters]
  have htxn := hroster.txn?_handle (List.mem_append_left engine.reading hmem)
  have hmarked := h.marked
  have hold := h.keeps
  rw [hwriters, List.append_cons] at hmarked hold
  have hresult : engine.abort txn.handle = { engine with writers := outer } := by
    simp only [abort, htxn, hroster.writers txn hmem, Bool.false_eq_true, if_false]
    rw [hwriters]
    exact abortWriters_nested rfl (hroster.inner_ne rfl hwriters) houter (hmarked.opensNone houter) _
  rw [hresult]
  refine ⟨⟨h.slots, h.snapshot, ?_, hmarked.suffix⟩, rfl⟩
  have hdrop := List.forall₂_drop (inner.length + 1) hold
  rwa [List.drop_left' (by simp)] at hdrop

end MappedStore.Engine
