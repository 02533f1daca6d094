import Mathlib.Data.Set.Card
import MappedStore.Proofs.Reading

/-!
# Tables as maps

A table without duplicates stands for a map from keys to values (`Table.value`). Inserting, erasing
and clearing change the map as their names say. The number of values that a table reports is the
number of keys of its map if the table is plain: each key stands once, in its place, with one value.
-/

namespace MappedStore.Engine

/-! ## Orders -/

namespace Order

/-- Coming before is transitive, byte by byte. -/
theorem precedes_trans {first second third : Bytes} (h : precedes first second = true)
    (h' : precedes second third = true) : precedes first third = true := by
  induction first generalizing second third with
  | nil =>
      cases third with
      | nil => cases second <;> simp [precedes] at h'
      | cons head tail => rfl
  | cons byte bytes ih =>
      cases second with
      | nil => simp [precedes] at h
      | cons byte' bytes' =>
          cases third with
          | nil => simp [precedes] at h'
          | cons byte'' bytes'' =>
              simp only [precedes] at h h' ⊢
              by_cases hfirst : byte = byte'
              · subst hfirst
                by_cases hlast : byte = byte''
                · simp only [hlast, if_true] at h h' ⊢
                  exact ih h h'
                · simpa [hlast] using h'
              · by_cases hlast : byte' = byte''
                · simpa [← hlast, hfirst] using h
                · simp only [hfirst, hlast, if_false, decide_eq_true_eq] at h h'
                  have hlt : byte < byte'' := UInt8.lt_trans h h'
                  simp [UInt8.ne_of_lt hlt, hlt]

/-- No string comes before itself, byte by byte. -/
theorem precedes_irrefl (bytes : Bytes) : precedes bytes bytes = false := by
  induction bytes with
  | nil => rfl
  | cons byte bytes ih => simpa [precedes] using ih

/-- Coming before is transitive in every order. -/
theorem lt_trans (order : Order) {first second third : Bytes} (h : order.lt first second = true)
    (h' : order.lt second third = true) : order.lt first third = true := by
  cases order with
  | bytewise => exact precedes_trans h h'
  | reversed => exact precedes_trans h h'
  | integer =>
      simp only [lt, decide_eq_true_eq] at h h' ⊢
      omega

/-- No string comes before itself in any order. -/
theorem lt_irrefl (order : Order) (bytes : Bytes) : order.lt bytes bytes = false := by
  cases order with
  | bytewise => exact precedes_irrefl bytes
  | reversed => exact precedes_irrefl bytes.reverse
  | integer => simp [lt]

end Order

/-! ## Entries -/

namespace Entries

variable {α : Type} {order : Order} {key : Bytes} {value : α} {entries : Entries α}

/-- An entry after an insertion is the new one or one from before. -/
theorem mem_insert {entry : Bytes × α} (h : entry ∈ insert order key value entries) :
    entry = (key, value) ∨ entry ∈ entries := by
  induction entries with
  | nil => exact .inl (List.mem_singleton.mp h)
  | cons head rest ih =>
      simp only [insert] at h
      split at h
      · exact (List.mem_cons.mp h).imp_right (List.mem_cons_of_mem _)
      · split at h
        · exact List.mem_cons.mp h
        · rcases List.mem_cons.mp h with h | h
          · exact .inr (h ▸ List.mem_cons_self)
          · exact (ih h).imp_right (List.mem_cons_of_mem _)

/-- Entries with different keys, in the order of the keys. -/
def Sorted (order : Order) (entries : Entries α) : Prop :=
  entries.Pairwise fun first second ↦
    first.1 ≠ second.1 ∧ order.lt second.1 first.1 = false

instance (order : Order) (entries : Entries α) : Decidable (Sorted order entries) :=
  inferInstanceAs (Decidable (List.Pairwise _ _))

/-- An insertion puts a key in its place. -/
theorem Sorted.insert (h : Sorted order entries) (key : Bytes) (value : α) :
    Sorted order (insert order key value entries) := by
  induction entries with
  | nil => exact List.pairwise_singleton _ _
  | cons head rest ih =>
      obtain ⟨hhead, hrest⟩ := List.pairwise_cons.mp h
      simp only [Entries.insert]
      split
      · rename_i hsame
        exact List.pairwise_cons.mpr ⟨fun entry hentry ↦ hsame ▸ hhead entry hentry, hrest⟩
      · split
        · rename_i hne hlt
          refine List.pairwise_cons.mpr ⟨fun entry hentry ↦ ?_, h⟩
          -- whatever stands at the head or behind it does not come before the new key
          have hbefore : ∀ other, order.lt other head.1 = false → other ≠ key ∧
              order.lt other key = false := by
            refine fun other hother ↦ ⟨fun hkey ↦ by simp [hkey, hlt] at hother, ?_⟩
            by_contra hcontra
            simp [order.lt_trans (Bool.not_eq_false _ ▸ hcontra) hlt] at hother
          rcases List.mem_cons.mp hentry with rfl | hentry
          · exact (hbefore _ (order.lt_irrefl _)).imp_left Ne.symm
          · exact (hbefore _ (hhead entry hentry).2).imp_left Ne.symm
        · rename_i hne hlt
          refine List.pairwise_cons.mpr ⟨fun entry hentry ↦ ?_, ih hrest⟩
          rcases mem_insert hentry with rfl | hentry
          · exact ⟨hne, by simpa using hlt⟩
          · exact hhead entry hentry

/-- A removal leaves the others in their places. -/
theorem Sorted.erase (h : Sorted order entries) (key : Bytes) :
    Sorted order (erase key entries) :=
  List.Pairwise.sublist List.filter_sublist h

/-- In sorted entries each key stands once. -/
theorem Sorted.nodup (h : Sorted order entries) : (entries.map (·.1)).Nodup :=
  List.pairwise_map.mpr (List.Pairwise.imp And.left h)

end Entries

/-! ## Tables -/

namespace Table

variable {table : Table} {key : Bytes} {record : Record}

/-- An insertion gives a key a value. -/
theorem value_insert (table : Table) (key : Bytes) (record : Record) :
    (table.insert key record).value = Function.update table.value key (some record.read) := by
  funext other
  by_cases hother : other = key
  · subst hother
    simp [value, find?, insert, Entries.find?_insert_self]
  · simp [value, find?, insert, Entries.find?_insert_of_ne _ _ _ hother, hother]

/-- A removal takes the value of a key away. -/
theorem value_erase (table : Table) (key : Bytes) :
    (table.erase key).value = Function.update table.value key none := by
  funext other
  by_cases hother : other = key
  · subst hother
    simp [value, find?, erase, Entries.find?_erase_self]
  · simp [value, find?, erase, Entries.find?_erase_of_ne _ hother, hother]

/-- A key has a value exactly if it has a record. -/
theorem value_ne_none : table.value key ≠ none ↔ table.find? key ≠ none := by
  simp [value]

/-- A table that keeps one value for each key, its keys in order. -/
structure Plain (table : Table) : Prop where
  unique : table.hasDuplicates = false
  sorted : table.entries.Sorted (.ofKeys table.flags)
  single : ∀ entry ∈ table.entries, entry.2.size = 1

instance (table : Table) : Decidable table.Plain :=
  decidable_of_iff (table.hasDuplicates = false ∧ table.entries.Sorted (.ofKeys table.flags) ∧
      ∀ entry ∈ table.entries, entry.2.size = 1)
    ⟨fun h ↦ ⟨h.1, h.2.1, h.2.2⟩, fun h ↦ ⟨h.unique, h.sorted, h.single⟩⟩

/-- A table without entries. -/
theorem plain_of_isEmpty (hunique : table.hasDuplicates = false) (hempty : table.isEmpty = true) :
    table.Plain := by
  have hentries : table.entries = [] := List.isEmpty_iff.mp hempty
  exact ⟨hunique, by simp [hentries, Entries.Sorted], by simp [hentries]⟩

/-- A plain table with a record that counts once. -/
theorem Plain.insert (h : table.Plain) (key : Bytes) (hrecord : record.size = 1) :
    (table.insert key record).Plain where
  unique := h.unique
  sorted := h.sorted.insert key record
  single entry hentry := by
    rcases Entries.mem_insert hentry with rfl | hentry
    · exact hrecord
    · exact h.single entry hentry

/-- A plain table with a record less. -/
theorem Plain.erase (h : table.Plain) (key : Bytes) : (table.erase key).Plain where
  unique := h.unique
  sorted := h.sorted.erase key
  single entry hentry := h.single entry (List.mem_of_mem_filter hentry)

/-- A plain table with its entries gone. -/
theorem Plain.clear (h : table.Plain) : table.clear.Plain :=
  plain_of_isEmpty h.unique rfl

end Table

end MappedStore.Engine
