import MappedStore.Engine.Order

/-!
# Sorted entries

Associations from byte strings, kept in the order of their keys. Each operation is described by
its effect on look-ups: `find?_insert_self`, `find?_insert_of_ne`, `find?_erase_self` and
`find?_erase_of_ne`.
-/

namespace MappedStore.Engine

/-- Associations from keys, in the order of the keys. -/
abbrev Entries (α : Type) := List (Bytes × α)

namespace Entries

variable {α : Type}

/-- The association of a key. -/
def find? (key : Bytes) : Entries α → Option α
  | [] => none
  | (other, value) :: rest => if other = key then some value else find? key rest

/-- Associate a key, replacing what it was associated with. -/
def insert (order : Order) (key : Bytes) (value : α) : Entries α → Entries α
  | [] => [(key, value)]
  | (other, old) :: rest =>
      if other = key then (key, value) :: rest
      else if order.lt key other then (key, value) :: (other, old) :: rest
      else (other, old) :: insert order key value rest

/-- Remove the association of a key. -/
def erase (key : Bytes) (entries : Entries α) : Entries α :=
  entries.filter fun entry ↦ entry.1 ≠ key

/-- The last key in order. -/
def lastKey? (entries : Entries α) : Option Bytes :=
  entries.getLast?.map (·.1)

/-- A key just associated is found. -/
theorem find?_insert_self (order : Order) (key : Bytes) (value : α) (entries : Entries α) :
    find? key (insert order key value entries) = some value := by
  induction entries with
  | nil => simp [insert, find?]
  | cons entry rest ih =>
      rcases entry with ⟨other, old⟩
      simp only [insert]
      split
      · simp [find?]
      · split
        · simp [find?]
        · rename_i hne _
          simp [find?, hne, ih]

/-- Associating one key leaves the others as they were. -/
theorem find?_insert_of_ne (order : Order) {key other : Bytes} (value : α) (entries : Entries α)
    (hne : other ≠ key) : find? other (insert order key value entries) = find? other entries := by
  induction entries with
  | nil => simp [insert, find?, Ne.symm hne]
  | cons entry rest ih =>
      rcases entry with ⟨head, old⟩
      simp only [insert]
      split
      · rename_i h
        subst h
        simp [find?, Ne.symm hne]
      · split
        · simp [find?, Ne.symm hne]
        · simp only [find?]
          split
          · rfl
          · exact ih

/-- A removed key is not found. -/
theorem find?_erase_self (key : Bytes) (entries : Entries α) :
    find? key (erase key entries) = none := by
  induction entries with
  | nil => rfl
  | cons entry rest ih =>
      rcases entry with ⟨head, old⟩
      by_cases h : head = key
      · simpa [erase, List.filter, h] using ih
      · simpa [erase, List.filter, h, find?] using ih

/-- Removing one key leaves the others as they were. -/
theorem find?_erase_of_ne {key other : Bytes} (entries : Entries α) (hne : other ≠ key) :
    find? other (erase key entries) = find? other entries := by
  induction entries with
  | nil => rfl
  | cons entry rest ih =>
      rcases entry with ⟨head, old⟩
      by_cases h : head = key
      · subst h
        simpa [erase, List.filter, find?, Ne.symm hne] using ih
      · have h' : erase key ((head, old) :: rest) = (head, old) :: erase key rest := by
          simp [erase, List.filter, h]
        rw [h', find?, find?, ih]

end Entries

end MappedStore.Engine
