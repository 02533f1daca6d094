import MappedStore.Proofs.Engine.Opening

/-!
# The ground level of nested writers

A root that has only opened databases holds the committed maps, and empty ones for the databases
that it has created. It is the first level of a stack of nested writers (`Preparing.levels`).
-/

namespace MappedStore.Engine

variable {engine : Engine} {slots : SlotTable} {snapshot : Snapshot} {slot handle : Nat} {txn : Txn}
  {content loaded : TxnSlot} {table : Table} {used : Nat → Prop} {opened : List Nat}

/-- The map of the main database, or of the named one that is recorded under a name. A name without
a record has an empty map. -/
def Snapshot.value (snapshot : Snapshot) (slot : Nat) (name : Bytes) : Bytes → Option Bytes :=
  if slot = mainSlot then snapshot.main.value
  else
    match snapshot.main.find? name with
    | some .database => (snapshot.table name).value
    | _ => fun _ ↦ none

/-- The maps that a transaction has behind its slots. -/
def Txn.contents (slots : SlotTable) (txn : Txn) : Contents := fun slot key ↦
  match (txn.usable? slot).map (txn.load slots slot) with
  | some (.ok loaded) => loaded.table.value key
  | _ => none

/-- A map is that of the table that the transaction sees. -/
theorem Txn.contents_of_sees (h : txn.Sees slots slot table) :
    txn.contents slots slot = table.value := by
  obtain ⟨content, loaded, husable, hload, rfl⟩ := h
  funext key
  simp [contents, husable, hload]

/-- A slot whose table can be read has a record in the main table, and is known with the flags of
the table, unless the root has opened it. -/
theorem Txn.Settled.seen (h : txn.Settled slots snapshot slot content)
    (husable : content.usable = true) (hload : txn.load slots slot content = .ok loaded) :
    txn.main.table.find? (slots.info slot).name = some .database ∧
      (content.fresh = true ∨
        (slots.info slot).known = true ∧ (slots.info slot).flags = loaded.table.flags) := by
  cases hfresh : content.fresh with
  | true => exact ⟨(h.opened hfresh).2.2.2, .inl rfl⟩
  | false =>
      obtain ⟨hstale, hknown, hflags⟩ := h.known husable hfresh
      have hstanding : txn.isOutdated slots slot content = false := by
        simp [isOutdated, h.standing husable]
      have hread := hload
      rw [load_stale hstale hstanding, Snapshot.lookup] at hread
      refine ⟨?_, .inr ⟨hknown, hflags.trans (Keeps.load_marks hload).2.2.symm⟩⟩
      change txn.snapshot.main.find? (slots.info slot).name = _
      cases hfind : txn.snapshot.main.find? (slots.info slot).name with
      | none => simp [hfind, Except.map] at hread
      | some record =>
          cases record with
          | database => rfl
          | values items run => simp [hfind, Except.map] at hread

namespace Txn.Opening

end Txn.Opening

/-- What stays fixed while the transactions of a root are used. -/
def Txn.setting (engine : Engine) (txn : Txn) (used : Nat → Prop) : Setting where
  slots := engine.slots
  snapshot := engine.image.snapshot
  used := used
  made slot := slot ≠ mainSlot ∧ ∃ content, txn.slot? slot = some content ∧ content.fresh = true

/-- A root that has only opened databases keeps the maps that it has. -/
theorem Txn.Opening.keeps (h : txn.Opening engine.slots engine.image.snapshot)
    (hwriter : txn.readOnly = false) (hbroken : txn.broken = false)
    (hused : ∀ slot, used slot → ∃ table, txn.Sees engine.slots slot table ∧ table.Plain) :
    txn.Keeps (txn.setting engine used) (txn.contents engine.slots) := by
  refine ⟨hwriter, hbroken, h.mainStale, fun slot hslot ↦ ?_, ?_, h.unchanged⟩
  · obtain ⟨table, hsees, hplain⟩ := hused slot hslot
    obtain ⟨content, loaded, husable, hload, rfl⟩ := id hsees
    obtain ⟨hcontent, hready, -⟩ := slot?_of_usable? husable
    refine ⟨⟨loaded.table, hsees, hplain, (contents_of_sees hsees).symm, fun hnamed ↦ ?_⟩,
      fun hnamed ↦ ?_, fun hnamed kept hkept ↦ ?_⟩
    · exact ((h.settled slot content hnamed hcontent).seen hready hload).2.imp_left
        fun hfresh ↦ ⟨hnamed, content, hcontent, hfresh⟩
    · exact ((h.settled slot content hnamed hcontent).seen hready hload).1
    · obtain rfl := Option.some.inj (hcontent.symm.trans hkept)
      exact (h.settled slot content hnamed hcontent).standing hready
  · intro slot content hnamed hcontent hdirty
    have hsettled := h.settled slot content hnamed hcontent
    have hfresh := hsettled.fresh hdirty
    obtain ⟨-, hread, -, hrecorded⟩ := hsettled.opened hfresh
    refine ⟨hread, .inr ⟨hnamed, content, hcontent, hfresh⟩, hrecorded,
      fun other hother hnamed' hname ↦ ?_⟩
    obtain ⟨table, hsees, -⟩ := hused other hother
    exact hsettled.alone hdirty other hnamed' (slot?_of_sees hsees) hname

/-- Such a root is the ground level of a stack. -/
theorem Preparing.levels (h : Preparing handle opened engine txn) (hwriter : txn.readOnly = false)
    (hbroken : txn.broken = false)
    (hused : ∀ slot, used slot → ∃ table, txn.Sees engine.slots slot table ∧ table.Plain) :
    Levels (txn.setting engine used) engine [txn.contents engine.slots] := by
  refine ⟨rfl, rfl, ?_, ?_⟩
  · rw [h.writers]
    exact .cons ((h.opening hbroken).keeps hwriter hbroken hused) .nil
  · rw [h.writers]
    intro slot content _ _ hmade hcontent
    obtain ⟨-, kept, hkept, hfresh⟩ := hmade
    obtain rfl := Option.some.inj (hkept.symm.trans hcontent)
    exact hfresh

/-- The slots that such a root has opened are occupied, and among those listed. -/
theorem Preparing.made (h : Preparing handle opened engine txn) (hbroken : txn.broken = false)
    (hmade : (txn.setting engine used).made slot) :
    (engine.slots.info slot).name ≠ [] ∧ slot ∈ opened := by
  obtain ⟨hslot, content, hcontent, hfresh⟩ := hmade
  exact ⟨(((h.opening hbroken).settled slot content hslot hcontent).opened hfresh).2.2.1,
    h.opened hbroken slot content hslot hcontent hfresh⟩

end MappedStore.Engine
