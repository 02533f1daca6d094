import MappedStore.Engine.Disk
import MappedStore.Engine.Lifecycle
import MappedStore.Proofs.Engine.Use

/-!
# The roster of transactions

Which transactions an engine has, and how each operation changes that. Handles tell the
transactions apart (`Engine.Roster`). A use, a reset and a renewal keep them all
(`Engine.Stays`), a begin adds one, and an end removes one, together with those nested in it.
-/

namespace MappedStore.Engine

/-- The handle of a transaction, and whether it only reads. -/
def Txn.tag (txn : Txn) : Nat × Bool := (txn.handle, txn.readOnly)

/-- The handle of a transaction, and whether it sleeps. -/
def Txn.mark (txn : Txn) : Nat × Bool := (txn.handle, txn.idle)

/-- The transactions of an engine are kept apart: by their handles, of which the next one is
still free, and as writers and readers. -/
structure Roster (engine : Engine) : Prop where
  writers : ∀ txn ∈ engine.writers, txn.readOnly = false
  reading : ∀ txn ∈ engine.reading, txn.readOnly = true
  nodup : ((engine.writers ++ engine.reading).map (·.handle)).Nodup
  lt : ∀ txn ∈ engine.writers ++ engine.reading, txn.handle < engine.nextHandle

/-- An engine after a step that neither began nor ended a transaction, nor committed anything. -/
structure Stays (before after : Engine) : Prop where
  writers : after.writers.map Txn.tag = before.writers.map Txn.tag
  reading : after.reading.map Txn.tag = before.reading.map Txn.tag
  nextHandle : after.nextHandle = before.nextHandle
  image : after.image = before.image
  slots : SlotTable.Later before.slots after.slots

variable {engine before after last : Engine} {handle : Nat} {txn : Txn}

/-- Nothing has happened. -/
theorem Stays.refl (engine : Engine) : Stays engine engine :=
  ⟨rfl, rfl, rfl, rfl, .refl engine.slots⟩

/-! ## Looking for transactions -/

/-- With handles that differ, the transaction that is found is the one with the handle. -/
theorem find?_handle {txns : List Txn} (h : (txns.map (·.handle)).Nodup) {txn : Txn}
    (hmem : txn ∈ txns) : txns.find? (·.handle = txn.handle) = some txn := by
  induction txns with
  | nil => simp at hmem
  | cons first rest ih =>
      obtain ⟨hnot, hnodup⟩ := List.nodup_cons.mp h
      rcases List.mem_cons.mp hmem with rfl | hrest
      · simp
      · have hne : first.handle ≠ txn.handle := fun heq ↦
          hnot (List.mem_map.mpr ⟨txn, hrest, heq.symm⟩)
        rw [List.find?_cons_of_neg (by simpa using hne)]
        exact ih hnodup hrest

/-- A transaction is found under its handle. -/
theorem Roster.txn?_handle (h : Roster engine) (hmem : txn ∈ engine.writers ++ engine.reading) :
    engine.txn? txn.handle = some txn :=
  find?_handle h.nodup hmem

/-- A transaction that is found is one of the writers or one of the readers. -/
theorem mem_of_txn? (h : engine.txn? handle = some txn) :
    txn ∈ engine.writers ++ engine.reading :=
  List.mem_of_find?_eq_some h

/-- A writer that is found is in the chain. -/
theorem Roster.mem_writers (h : Roster engine) (htxn : engine.txn? handle = some txn)
    (hwriter : txn.readOnly = false) : txn ∈ engine.writers := by
  rcases List.mem_append.mp (mem_of_txn? htxn) with hmem | hmem
  · exact hmem
  · simp [h.reading txn hmem] at hwriter

/-- A reader that is found is among the readers. -/
theorem Roster.mem_reading (h : Roster engine) (htxn : engine.txn? handle = some txn)
    (hreader : txn.readOnly = true) : txn ∈ engine.reading := by
  rcases List.mem_append.mp (mem_of_txn? htxn) with hmem | hmem
  · simp [h.writers txn hmem] at hreader
  · exact hmem

/-! ## Rosters after a step -/

/-- A roster from which transactions have gone, and whose next handle has not gone back. -/
theorem Roster.of_sublist (h : Roster before)
    (writers : (after.writers.map Txn.tag).Sublist (before.writers.map Txn.tag))
    (reading : (after.reading.map Txn.tag).Sublist (before.reading.map Txn.tag))
    (nextHandle : before.nextHandle ≤ after.nextHandle) : Roster after := by
  have hsource : ∀ {txns txns' : List Txn}, (txns'.map Txn.tag).Sublist (txns.map Txn.tag) →
      ∀ txn' ∈ txns', ∃ txn ∈ txns, txn.handle = txn'.handle ∧ txn.readOnly = txn'.readOnly := by
    intro txns txns' hsub txn' hmem
    obtain ⟨txn, htxn, htag⟩ := List.mem_map.mp (hsub.subset (List.mem_map_of_mem hmem))
    exact ⟨txn, htxn, congrArg Prod.fst htag, congrArg Prod.snd htag⟩
  have hhandles : ∀ txns : List Txn,
      txns.map (·.handle) = (txns.map Txn.tag).map Prod.fst := fun txns ↦ by
    simp [List.map_map, Function.comp_def, Txn.tag]
  refine ⟨fun txn' hmem ↦ ?_, fun txn' hmem ↦ ?_, ?_, fun txn' hmem ↦ ?_⟩
  · obtain ⟨txn, htxn, -, hreadOnly⟩ := hsource writers txn' hmem
    exact hreadOnly.symm.trans (h.writers txn htxn)
  · obtain ⟨txn, htxn, -, hreadOnly⟩ := hsource reading txn' hmem
    exact hreadOnly.symm.trans (h.reading txn htxn)
  · have hnodup := h.nodup
    rw [List.map_append, hhandles, hhandles] at hnodup ⊢
    exact ((writers.map Prod.fst).append (reading.map Prod.fst)).nodup hnodup
  · rcases List.mem_append.mp hmem with hmem | hmem
    · obtain ⟨txn, htxn, hhandle, -⟩ := hsource writers txn' hmem
      have := h.lt txn (List.mem_append_left _ htxn)
      omega
    · obtain ⟨txn, htxn, hhandle, -⟩ := hsource reading txn' hmem
      have := h.lt txn (List.mem_append_right _ htxn)
      omega

/-- A roster whose transactions stay. -/
theorem Roster.of_stays (h : Roster before) (hstays : Stays before after) : Roster after :=
  h.of_sublist (hstays.writers ▸ .refl _) (hstays.reading ▸ .refl _)
    (Nat.le_of_eq hstays.nextHandle.symm)

/-- A roster with a new writer, which gets the next handle. -/
theorem Roster.of_writer (h : Roster before) (hwriter : txn.readOnly = false)
    (hhandle : txn.handle = before.nextHandle) (writers : after.writers = txn :: before.writers)
    (reading : after.reading = before.reading)
    (nextHandle : after.nextHandle = before.nextHandle + 1) : Roster after := by
  refine ⟨?_, ?_, ?_, ?_⟩
  · intro other hmem
    rw [writers] at hmem
    rcases List.mem_cons.mp hmem with rfl | hmem
    · exact hwriter
    · exact h.writers other hmem
  · rw [reading]
    exact h.reading
  · rw [writers, reading, List.cons_append, List.map_cons]
    refine List.nodup_cons.mpr ⟨fun hmem ↦ ?_, h.nodup⟩
    obtain ⟨other, hother, heq⟩ := List.mem_map.mp hmem
    have := h.lt other hother
    omega
  · intro other hmem
    rw [writers, reading, List.cons_append] at hmem
    rcases List.mem_cons.mp hmem with rfl | hmem
    · omega
    · have := h.lt other hmem
      omega

/-- A roster with a new reader, which gets the next handle. -/
theorem Roster.of_reader (h : Roster before) (hreader : txn.readOnly = true)
    (hhandle : txn.handle = before.nextHandle) (writers : after.writers = before.writers)
    (reading : after.reading = txn :: before.reading)
    (nextHandle : after.nextHandle = before.nextHandle + 1) : Roster after := by
  have hperm : ((after.writers ++ after.reading).map (·.handle)).Perm
      (txn.handle :: (before.writers ++ before.reading).map (·.handle)) := by
    rw [writers, reading]
    exact List.perm_middle.map Txn.handle
  have hmem : ∀ other ∈ after.writers ++ after.reading,
      other = txn ∨ other ∈ before.writers ++ before.reading := by
    intro other hother
    rw [writers, reading] at hother
    simpa [or_left_comm] using hother
  refine ⟨?_, ?_, ?_, ?_⟩
  · rw [writers]
    exact h.writers
  · intro other hother
    rw [reading] at hother
    rcases List.mem_cons.mp hother with rfl | hother
    · exact hreader
    · exact h.reading other hother
  · refine hperm.nodup_iff.mpr (List.nodup_cons.mpr ⟨fun hmem ↦ ?_, h.nodup⟩)
    obtain ⟨other, hother, heq⟩ := List.mem_map.mp hmem
    have := h.lt other hother
    omega
  · intro other hother
    rcases hmem other hother with rfl | hother
    · omega
    · have := h.lt other hother
      omega

end MappedStore.Engine
