import MappedStore.Proofs.Engine.Publishing

/-!
# Steps that publish nothing

Every step of an engine but the commit of a root writer leaves the committed image (`Steady`). So
what was published stays so while its slot keeps its occupant (`Published.steady`), and a reader
that begins sees it (`Published.sees`).
-/

namespace MappedStore.Engine

variable {engine before after last : Engine} {handle slot : Nat} {map : Bytes → Option Bytes}

/-- An engine with the same committed image, in which no fewer slots are known. -/
structure Steady (before after : Engine) : Prop where
  image : after.image = before.image
  known : before.known ≤ after.known

namespace Steady

/-- Nothing has happened. -/
theorem refl (engine : Engine) : Steady engine engine := ⟨rfl, Nat.le_refl _⟩

/-- One step after the other. -/
theorem trans (h : Steady before after) (h' : Steady after last) : Steady before last :=
  ⟨h'.image.trans h.image, h.known.trans h'.known⟩

/-- A step aside. -/
theorem aside (h : Aside before after) : Steady before after := by
  obtain ⟨readers, next, -, rfl⟩ := h
  exact ⟨rfl, Nat.le_refl _⟩

/-- A use of a transaction. -/
theorem used (h : Used before handle after) : Steady before after := by
  cases h <;> exact ⟨rfl, Nat.le_refl _⟩

/-- A begin. -/
theorem began {parent : Option Nat} {flags : TxnFlags} (h : Began before parent flags handle after) :
    Steady before after := by
  cases h <;> exact ⟨rfl, Nat.le_refl _⟩

/-- A reset. -/
theorem reset (h : WasReset before handle after) : Steady before after := by
  cases h <;> exact ⟨rfl, Nat.le_refl _⟩

/-- A renewal. -/
theorem renewed (h : Renewed before handle after) : Steady before after := by
  cases h
  exact ⟨rfl, Nat.le_refl _⟩

/-- The end of a reader. -/
theorem endReader (engine : Engine) (txn : Txn) (keep : Bool) :
    Steady engine (engine.endReader txn keep) := by
  obtain ⟨readers, hleave⟩ := leaveReader_eq engine txn true
  unfold Engine.endReader
  dsimp only
  rw [hleave]
  split
  · exact ⟨rfl, Nat.le_refl _⟩
  · split
    · exact ⟨rfl, Nat.le_max_left _ _⟩
    · exact ⟨rfl, Nat.le_refl _⟩

/-- The end of writers without a commit. -/
theorem abortWriters (engine : Engine) (handle : Nat) (writers : List Txn) :
    Steady engine (engine.abortWriters handle writers) := by
  induction writers generalizing engine with
  | nil => exact ⟨rfl, Nat.le_refl _⟩
  | cons txn rest ih =>
      unfold Engine.abortWriters
      dsimp only
      split
      · exact ⟨rfl, Nat.le_refl _⟩
      · obtain ⟨himage, hknown⟩ := ih
          { engine with
            slots := engine.slots.discard txn.named
            memory := if rest.isEmpty then remember engine.memory txn.named else engine.memory }
        exact ⟨himage, hknown⟩

/-- An abort. -/
theorem abort (engine : Engine) (handle : Nat) : Steady engine (engine.abort handle) := by
  unfold Engine.abort
  split
  · exact refl engine
  · split
    · exact endReader _ _ _
    · exact abortWriters _ _ _

/-- A commit that is refused. -/
theorem refused {code : Code} (h : engine.commit handle = (.error code, after)) :
    Steady engine after := by
  -- what is refused has at most replaced writers before it was aborted
  have haborted : ∀ (middle : Engine) (handle : Nat), middle.image = engine.image →
      middle.known = engine.known → Steady engine (middle.abort handle) :=
    fun middle handle himage hknown ↦ trans ⟨himage, Nat.le_of_eq hknown.symm⟩ (abort middle handle)
  unfold Engine.commit at h
  split at h
  · exact (Prod.mk.inj h).2 ▸ refl engine
  split at h
  · simp at h
  split at h
  · exact (Prod.mk.inj h).2 ▸ refl engine
  split at h
  · unfold commitWriter at h
    split at h
    · split at h
      · exact (Prod.mk.inj h).2 ▸ haborted _ _ rfl rfl
      · simp at h
    · split at h
      · exact (Prod.mk.inj h).2 ▸ haborted _ _ rfl rfl
      split at h
      · simp at h
      split at h
      · exact (Prod.mk.inj h).2 ▸ haborted _ _ rfl rfl
      · simp at h
  · exact (Prod.mk.inj h).2 ▸ haborted _ _ rfl rfl

/-- A commit, unless it is that of a root writer. -/
theorem committed (h : Committed before handle after) :
    Steady before after ∨ ∃ txn, before.writers = [txn] ∧ txn.handle = handle := by
  cases h with
  | reader => exact .inl (endReader _ _ _)
  | nested => exact .inl ⟨rfl, Nat.le_refl _⟩
  | root image hwriters hhandle => exact .inr ⟨_, hwriters, hhandle⟩

end Steady

/-- What was published stays so in a step that publishes nothing and leaves the occupant of the
slot. -/
theorem Published.steady (h : Published slot map before) (hsteady : Steady before after)
    (hinfo : after.slots.info slot = before.slots.info slot) : Published slot map after where
  main hslot := hsteady.image ▸ h.main hslot
  named hslot := by
    obtain ⟨hknown, hlt, table, hlookup, hvalue⟩ := h.named hslot
    rw [hinfo, hsteady.image]
    exact ⟨hknown, Nat.lt_of_lt_of_le hlt (Nat.add_le_add_right hsteady.known _), table, hlookup,
      hvalue⟩

/-- A reader that begins sees what was published. -/
theorem Published.sees (h : Published slot map engine) (reader : Option Nat) :
    ∃ table, (engine.newReader reader).Sees engine.slots slot table ∧ table.value = map := by
  rcases slot with _ | _ | index
  · obtain ⟨hknown, -⟩ := h.named (by decide)
    simp [SlotTable.info] at hknown
  · exact ⟨engine.image.snapshot.main, ⟨Txn.mainOf engine.image.snapshot, _, rfl, rfl, rfl⟩, h.main rfl⟩
  · obtain ⟨hknown, hlt, table, hlookup, hvalue⟩ := h.named (by simp [mainSlot])
    have hknown' : (engine.slots.getD index {}).known = true := hknown
    have hindex : index < engine.known := by simpa [firstSlot] using hlt
    -- the reader knows the slot, and has yet to read it
    let info := engine.slots.getD index {}
    let content : TxnSlot :=
      { usable := info.known, stale := info.known, unread := true, sequence := info.sequence,
        table := { ({} : Table) with flags := info.flags } }
    have hslot : (engine.newReader reader).slot? (index + 2) = some content := by
      show (engine.slots.fresh engine.known [])[index]? = some content
      rw [SlotTable.fresh, List.getElem?_map, List.getElem?_range hindex]
      rfl
    have hload : (engine.newReader reader).load engine.slots (index + 2) content = _ :=
      Txn.load_stale hknown' rfl
    refine ⟨table, ⟨content, { content with stale := false, unread := false, table := table },
      ?_, ?_, rfl⟩, hvalue⟩
    · rw [Txn.usable?, hslot]
      exact if_pos hknown'
    · rw [hload]
      exact congrArg (Except.map _) hlookup

end MappedStore.Engine
