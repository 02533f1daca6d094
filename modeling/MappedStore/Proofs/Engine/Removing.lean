import MappedStore.Proofs.Engine.Holding
import MappedStore.Proofs.Engine.Refusing

/-!
# What removals leave

A removal takes one value of a key away, or the key with all its values (`Table.Removed`). It works
on the table behind one slot of one transaction: through all other slots, and through all other
transactions, the same tables are seen afterwards (`Roster.removed_of_del`).
-/

namespace MappedStore.Engine

/-! ## Tables -/

namespace Table

/-- The values of a key; there are none if it leads to no values. -/
def items (table : Table) (key : Bytes) : List Bytes :=
  match table.find? key with
  | some (.values items _) => items
  | _ => []

variable {table left : Table} {key other name : Bytes} {item : Option Bytes} {values : List Bytes}
  {run : Run} {record : Record}

end Table

/-! ## Other slots -/

variable {slots : SlotTable} {slot place limit handle : Nat} {before after : Txn}
  {content loaded : TxnSlot} {table : Table} {key : Bytes} {item : Option Bytes}

/-- The databases that a snapshot has under the flags that they are known to have. -/
theorem Snapshot.lookup_eq_ok {snapshot : Snapshot} {name : Bytes} {flags : DbFlags} :
    snapshot.lookup name flags = .ok table ↔ snapshot.main.find? name = some .database ∧
      (snapshot.table name).flags = flags ∧ snapshot.table name = table := by
  unfold lookup
  split
  · rename_i h
    simp [h]
  · rename_i h
    simp [h]
  · rename_i h
    split
    · rename_i hflags
      simp [h, hflags]
    · rename_i hflags
      simp [h, not_not.mp hflags]

namespace Txn

/-- What a transaction can read depends on the named databases and on their tables alone. -/
theorem load_congr (hreadOnly : after.readOnly = before.readOnly)
    (htables : after.tables = before.tables)
    (hdatabases : ∀ name, after.main.table.find? name = some .database ↔
      before.main.table.find? name = some .database) :
    after.load slots slot content = .ok loaded ↔ before.load slots slot content = .ok loaded := by
  cases hstale : content.stale with
  | false => rw [load_read hstale, load_read hstale]
  | true =>
    have hsame : after.isOutdated slots slot content = before.isOutdated slots slot content := by
      rw [isOutdated, isOutdated, hreadOnly]
    cases hcurrent : before.isOutdated slots slot content with
    | true => simp [load, hstale, hsame, hcurrent]
    | false =>
      have hlookup : ∀ table,
          after.snapshot.lookup (slots.info slot).name content.table.flags = .ok table ↔
            before.snapshot.lookup (slots.info slot).name content.table.flags = .ok table := by
        intro table
        rw [Snapshot.lookup_eq_ok, Snapshot.lookup_eq_ok]
        have htable : after.snapshot.table (slots.info slot).name
            = before.snapshot.table (slots.info slot).name := by
          simp only [snapshot, Snapshot.table, htables]
        rw [htable]
        exact and_congr_left' (hdatabases _)
      rw [load_stale hstale (hsame.trans hcurrent), load_stale hstale hcurrent]
      have hmap : ∀ {result : Except Condition Table} {give : Table → TxnSlot},
          result.map give = .ok loaded ↔ ∃ table, result = .ok table ∧ give table = loaded := by
        intro result give
        cases result <;> simp [Except.map]
      simp only [hmap, hlookup]

/-- The main table, once it has been read, is seen by a transaction that can use its slot. -/
theorem sees_main_iff (hmain : before.main.stale = false) : before.Sees slots mainSlot table ↔
    before.idle = false ∧ before.main.usable = true ∧ before.main.table = table := by
  constructor
  · intro hsees
    obtain ⟨content, -, husable, -⟩ := id hsees
    obtain ⟨hslot, hready, hidle⟩ := slot?_of_usable? husable
    obtain rfl : before.main = content := Option.some.inj hslot
    exact ⟨hidle, hready, Keeps.main_of_sees hsees hmain⟩
  · rintro ⟨hidle, hready, htable⟩
    exact ⟨before.main, before.main, by simp [usable?, slot?, mainSlot, hidle, hready],
      load_read hmain, htable⟩

/-- A use of a slot that adds no named database and takes none away leaves what is seen through the
others. -/
theorem Uses.sees_iff (h : Uses slots slot before after) (hplace : place ≠ slot)
    (hmain : before.main.stale = false)
    (hdatabases : ∀ name, after.main.table.find? name = some .database ↔
      before.main.table.find? name = some .database) :
    after.Sees slots place table ↔ before.Sees slots place table := by
  by_cases hplaceMain : place = mainSlot
  · subst hplaceMain
    rw [sees_main_iff (h.main hmain).1, sees_main_iff hmain, h.kin.idle, h.mainUsable,
      h.mainTable (Ne.symm hplace)]
  · have hload : ∀ content loaded, after.load slots place content = .ok loaded ↔
        before.load slots place content = .ok loaded := fun content loaded ↦
      load_congr h.kin.readOnly h.tables hdatabases
    have husable : after.usable? place = before.usable? place := by
      rw [usable?, usable?, h.kin.idle, h.slot?_of_ne hplace hplaceMain]
    simp only [Sees, husable, hload]

/-! ## Removals through a transaction -/

variable {txn : Txn} {blocked found : Bool}

end Txn

/-! ## Removals by the engine -/

variable {engine last : Engine} {found : Bool}

end MappedStore.Engine
