import Mathlib.Tactic.Common
import MappedStore.Engine.Slots

/-!
# Occupations of slots

The counter of a slot moves whenever its occupant changes, so a slot and a value of its counter name
one occupation, by one database. `SlotInfo.Later` says this of what is known of one slot at two
times, and `SlotTable.Later` of two tables. Occupying, closing, discarding and keeping slots all
lead to later tables.
-/

namespace MappedStore.Engine

/-- What is known of a slot after what was known of it: its counter did not go back, and a slot
whose counter stands has its occupant still, and stays known. -/
structure SlotInfo.Later (before after : SlotInfo) : Prop where
  sequence_le : before.sequence ≤ after.sequence
  name_eq : after.sequence = before.sequence → after.name = before.name
  known : after.sequence = before.sequence → before.known = true → after.known = true

namespace SlotInfo

variable {first middle last : SlotInfo}

/-- A slot comes after itself. -/
theorem Later.refl (info : SlotInfo) : info.Later info :=
  ⟨Nat.le_refl _, fun _ ↦ rfl, fun _ ↦ id⟩

/-- A slot at three times. -/
theorem Later.trans (h : first.Later middle) (h' : middle.Later last) : first.Later last := by
  have hle := h.sequence_le
  have hle' := h'.sequence_le
  refine ⟨Nat.le_trans hle hle', fun heq ↦ ?_, fun heq hknown ↦ ?_⟩
  · rw [h'.name_eq (by omega), h.name_eq (by omega)]
  · exact h'.known (by omega) (h.known (by omega) hknown)

/-- A slot that is occupied or known stays so as long as its counter stands. -/
theorem Later.occupied (h : first.Later last) (hstands : last.sequence = first.sequence)
    (hfirst : first.name ≠ [] ∨ first.known = true) : last.name ≠ [] ∨ last.known = true := by
  rw [h.name_eq hstands]
  exact hfirst.imp_right (h.known hstands)

/-- Whatever has moved the counter leads to a later slot. -/
theorem later_of_moved (h : first.sequence < last.sequence) : first.Later last :=
  ⟨Nat.le_of_lt h, fun heq ↦ absurd heq (Nat.ne_of_gt h), fun heq ↦ absurd heq (Nat.ne_of_gt h)⟩

/-- The counter of a closed slot has moved, unless the slot was free already. -/
theorem later_closed (info : SlotInfo) : info.Later info.closed := by
  unfold closed
  split
  · exact .refl info
  · exact later_of_moved (Nat.lt_succ_self _)

end SlotInfo

namespace SlotTable

/-- A table of slots after another. -/
def Later (before after : SlotTable) : Prop := ∀ slot, (before.info slot).Later (after.info slot)

/-- A table comes after itself. -/
theorem Later.refl (slots : SlotTable) : Later slots slots := fun slot ↦ .refl (slots.info slot)

/-- Tables that come one after the other. -/
theorem Later.trans {first middle last : SlotTable} (h : Later first middle)
    (h' : Later middle last) : Later first last :=
  fun slot ↦ (h slot).trans (h' slot)

/-- Descriptions that change position by position give a later table. -/
theorem later_of_getD {before after : SlotTable}
    (h : ∀ index, (before.getD index {}).Later (after.getD index {})) : Later before after := by
  intro slot
  match slot with
  | 0 | 1 => exact .refl {}
  | index + 2 => exact h index

/-- Changing one position gives a later table if the change does. -/
theorem later_updateAt (slots : SlotTable) (index : Nat) {change : SlotInfo → SlotInfo}
    (h : ∀ info : SlotInfo, info.Later (change info)) :
    Later slots (slots.updateAt change index) := by
  refine later_of_getD fun other ↦ ?_
  by_cases hother : other = index
  · subst hother
    rw [getD_updateAt_self]
    exact h _
  · rw [getD_updateAt_of_ne change slots hother]
    exact .refl _

/-- Letting a name occupy a position moves the counter of that position. -/
theorem later_occupy (slots : SlotTable) (index : Nat) (name : Bytes) :
    Later slots (slots.updateAt
      (fun info ↦ { info with name := name, sequence := info.sequence + 1 }) index) :=
  later_updateAt slots index fun _ ↦ SlotInfo.later_of_moved (Nat.lt_succ_self _)

/-- Closing a slot gives a later table. -/
theorem later_close (slots : SlotTable) (slot : Nat) :
    Later slots (slots.update SlotInfo.closed slot) := by
  match slot with
  | 0 | 1 => exact .refl slots
  | index + 2 => exact later_updateAt slots index SlotInfo.later_closed

/-- The description of a position after a change at every position. -/
theorem getD_mapIdx (change : Nat → SlotInfo → SlotInfo) (slots : SlotTable) (index : Nat) :
    List.getD (slots.mapIdx change) index {} =
      if index < slots.length then change index (slots.getD index {}) else {} := by
  rw [List.getD_eq_getElem?_getD, List.getD_eq_getElem?_getD, List.getElem?_mapIdx]
  rcases Nat.lt_or_ge index slots.length with hlt | hge
  · simp [hlt]
  · simp [Nat.not_lt.mpr hge]

/-- A change at every position gives a later table if each of the changes does. -/
theorem later_mapIdx (slots : SlotTable) {change : Nat → SlotInfo → SlotInfo}
    (h : ∀ index (info : SlotInfo), info.Later (change index info)) :
    Later slots (slots.mapIdx change) := by
  refine later_of_getD fun index ↦ ?_
  rw [getD_mapIdx]
  split
  · exact h index _
  · rename_i hge
    rw [List.getD_eq_getElem?_getD, List.getElem?_eq_none (Nat.le_of_not_lt hge)]
    exact .refl {}

/-- What is known of a position once the slots that a transaction opened were freed. -/
theorem getD_discard (slots : SlotTable) (named : List TxnSlot) (index : Nat) :
    (slots.discard named).getD index {} =
      if (named.getD index {}).fresh then (slots.getD index {}).closed
      else slots.getD index {} := by
  unfold discard
  rw [getD_mapIdx]
  split
  · rfl
  · rename_i hge
    have hnone : slots.getD index {} = {} := by
      rw [List.getD_eq_getElem?_getD, List.getElem?_eq_none (by omega)]
      rfl
    rw [hnone]
    split <;> rfl

/-- Freeing the slots that a transaction opened gives a later table. -/
theorem later_discard (slots : SlotTable) (named : List TxnSlot) :
    Later slots (slots.discard named) := by
  refine later_mapIdx slots fun index info ↦ ?_
  split
  · exact info.later_closed
  · exact .refl info

/-- Making the slots that a transaction opened known leaves every occupant in place. -/
theorem later_keep (slots : SlotTable) (named : List TxnSlot) : Later slots (slots.keep named) := by
  refine later_mapIdx slots fun index info ↦ ?_
  dsimp only
  split
  · exact ⟨Nat.le_refl _, fun _ ↦ rfl, fun _ _ ↦ rfl⟩
  · exact .refl info

end SlotTable

end MappedStore.Engine
