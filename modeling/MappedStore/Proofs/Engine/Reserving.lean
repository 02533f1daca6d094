import MappedStore.Proofs.Engine.Writing
import MappedStore.Proofs.Engine.Refusing

/-!
# Reserved buffers

A write can reserve a buffer of zeros instead of storing bytes. In a database without duplicates it
makes no difference to the pages that are claimed and to the record that is made, so a buffer that
is filled at once leaves what a write of the bytes leaves, and the two fail alike
(`Txn.put_reserved`, `Engine.put_reserved`). A write that succeeds leaves its bytes under the key,
whether or not the transaction can read the table behind the slot (`put_stores`).
-/

namespace MappedStore

/-! ## Sets with and without a member -/

namespace Flags

variable {kind : FlagKind} {flags other whole : Flags kind}

/-- Whether a set has a bit. -/
def hasBit (flags : Flags kind) (index : Nat) : Bool := flags.bits.toBitVec.getLsbD index

/-- The bits of both sets together. -/
theorem hasBit_union (flags other : Flags kind) (index : Nat) :
    (flags.union other).hasBit index = (flags.hasBit index || other.hasBit index) := by
  simp [hasBit, union]

/-- The bits that are left of a set. -/
theorem hasBit_minus (flags other : Flags kind) (index : Nat) :
    (flags.minus other).hasBit index = (flags.hasBit index && !other.hasBit index) := by
  simp only [hasBit, minus, UInt32.toBitVec_and, UInt32.toBitVec_not, BitVec.getLsbD_and,
    BitVec.getLsbD_not]
  by_cases hindex : index < 32
  · simp [hindex]
  · simp [BitVec.getLsbD_of_ge _ _ (Nat.not_lt.mp hindex)]

/-- Sets with the same bits are the same. -/
theorem ext_hasBit (h : ∀ index, flags.hasBit index = other.hasBit index) : flags = other := by
  have hbits : flags.bits.toBitVec = other.bits.toBitVec :=
    BitVec.eq_of_getLsbD_eq fun index _ ↦ h index
  cases flags
  cases other
  exact congrArg Flags.mk (UInt32.toBitVec_inj.mp hbits)

/-- A set contains another one if it has all bits of that. -/
theorem contains_iff : flags.contains other = true ↔
    ∀ index, other.hasBit index = true → flags.hasBit index = true := by
  have hinter : flags.contains other = true ↔ (flags.inter other).bits = other.bits := beq_iff_eq
  have hbit : ∀ index, (flags.inter other).hasBit index
      = (flags.hasBit index && other.hasBit index) := fun index ↦ by simp [hasBit, inter]
  rw [hinter]
  constructor
  · intro h index hother
    have hsame : (flags.inter other).hasBit index = other.hasBit index := by rw [hasBit, h, hasBit]
    rw [hbit, hother, Bool.and_true] at hsame
    exact hsame
  · intro h
    refine congrArg Flags.bits (ext_hasBit fun index ↦ ?_)
    rw [hbit]
    cases hother : other.hasBit index with
    | true => rw [h index hother, Bool.and_self]
    | false => rw [Bool.and_false]

/-- Adding members is no concern of the others. -/
theorem contains_union (flags : Flags kind) {other flag : Flags kind} (h : flag.minus other = flag) :
    (flags.union other).contains flag = flags.contains flag := by
  have hapart : ∀ index, flag.hasBit index = true → other.hasBit index = false := by
    intro index hflag
    have hbit := hasBit_minus flag other index
    rw [h, hflag, Bool.true_and] at hbit
    simpa using hbit.symm
  rw [Bool.eq_iff_iff, contains_iff, contains_iff]
  refine forall₂_congr fun index hflag ↦ ?_
  rw [hasBit_union, hapart index hflag, Bool.or_false]

/-- A set that has some members contains another one with them if it contains it without them. -/
theorem contains_union_of_contains (h : whole.contains other = true) (flags : Flags kind) :
    whole.contains (flags.union other) = whole.contains (flags.minus other) := by
  have hmembers := contains_iff.mp h
  rw [Bool.eq_iff_iff, contains_iff, contains_iff]
  refine forall_congr' fun index ↦ ?_
  have hindex := hmembers index
  rw [hasBit_union, hasBit_minus]
  cases hother : other.hasBit index <;> simp_all

/-- Members that are taken away may as well have been added before. -/
theorem union_minus (flags other : Flags kind) :
    (flags.union other).minus other = flags.minus other := by
  refine ext_hasBit fun index ↦ ?_
  rw [hasBit_minus, hasBit_union, hasBit_minus]
  cases other.hasBit index <;> simp

end Flags

namespace Engine

variable {slots : SlotTable} {slot limit : Nat} {txn after : Txn} {table : Table}
  {key data : Bytes} {payload : Payload}

/-! ## Tables -/

/-- Associating a key twice is associating it the second time. -/
theorem Entries.insert_insert {α : Type} (order : Order) (key : Bytes) (first second : α)
    (entries : Entries α) :
    (entries.insert order key first).insert order key second = entries.insert order key second := by
  induction entries with
  | nil => simp [Entries.insert]
  | cons entry rest ih =>
    obtain ⟨other, old⟩ := entry
    by_cases hkey : other = key
    · simp [Entries.insert, hkey]
    cases hlt : order.lt key other with
    | true => simp [Entries.insert, hkey, hlt]
    | false => simp [Entries.insert, hkey, hlt, ih]

/-- A table in which the first value of a key is written over by bytes of the same length, as far as
there is one. -/
def Table.overwritten (key data : Bytes) (table : Table) : Table :=
  match table.find? key with
  | some (.values (item :: rest) run) =>
      if item.length = data.length then table.insert key (.values (data :: rest) run) else table
  | _ => table

/-- Bytes that are written over a buffer of their length make the record that they would have made
at once. -/
theorem Table.overwritten_reserved (table : Table) (key data : Bytes) (run : Run) :
    (table.insert key (.values [List.replicate data.length 0] run)).overwritten key data
      = table.insert key (.values [data] run) := by
  have hfind : (table.insert key (.values [List.replicate data.length 0] run)).find? key
      = some (.values [List.replicate data.length 0] run) := Entries.find?_insert_self ..
  unfold overwritten
  rw [hfind]
  dsimp only
  rw [if_pos List.length_replicate]
  exact congrArg (fun entries ↦ { table with entries := entries }) (Entries.insert_insert ..)

/-- A buffer is as long as the bytes that it is for. -/
theorem Payload.size_reserved (data : Bytes) :
    (Payload.reserved data.length).size = (Payload.bytes data).size :=
  rfl

/-! ## Filling -/

/-- A reservation followed by the filling of its buffer, unless it was refused. -/
def filled {State : Type} (fill : State → State) (answer : Answer State Unit) : Answer State Unit :=
  match answer with
  | (.ok (), state) => (.ok (), fill state)
  | (.error code, state) => (.error code, state)

namespace Txn

/-- Two changes of the table behind a slot are one. -/
theorem modifyTable_modifyTable (txn : Txn) (slot : Nat) (first second : Table → Table) :
    (txn.modifyTable slot first).modifyTable slot second = txn.modifyTable slot (second ∘ first) := by
  have hslot := slot?_modifySlot txn slot fun content ↦
    { content with table := first content.table }
  cases hcontent : txn.slot? slot with
  | none =>
    have hsame : ∀ change, txn.modifyTable slot change = txn := fun change ↦ by
      rw [modifyTable, modifySlot, hcontent]
    rw [hsame, hsame, hsame]
  | some content =>
    rw [hcontent] at hslot
    unfold modifyTable
    rw [modifySlot, hslot, modifySlot, modifySlot, hcontent]
    dsimp only [Option.map_some]
    rcases slot with _ | _ | index
    · rfl
    · rfl
    · simp [setSlot, List.set_set]

/-- Filling a buffer that was just reserved. -/
theorem fill_reserved (txn : Txn) (slot : Nat) (key data : Bytes) (run : Run) :
    (txn.modifyTable slot (·.insert key (.values [List.replicate data.length 0] run))).fill slot key
        data = txn.modifyTable slot (·.insert key (.values [data] run)) := by
  rw [show ∀ txn : Txn, txn.fill slot key data = txn.modifyTable slot (Table.overwritten key data)
    from fun _ ↦ rfl, modifyTable_modifyTable]
  exact congrArg (txn.modifyTable slot)
    (funext fun table ↦ table.overwritten_reserved key data run)

/-- A key that gets its first value. -/
theorem insertNew_reserved (txn : Txn) (limit slot : Nat) (key data : Bytes) :
    filled (·.fill slot key data) (txn.insertNew limit slot key (.reserved data.length))
      = txn.insertNew limit slot key (.bytes data) := by
  unfold insertNew
  rw [Payload.size_reserved]
  rcases txn.claimEntry limit key (Payload.bytes data).size with ⟨code | run, claimed⟩
  · rfl
  · exact congrArg (Except.ok (), ·) (claimed.fill_reserved slot key data run)

/-- An empty table that gets its first entry. -/
theorem insertFirst_reserved (txn : Txn) (limit slot : Nat) (key data : Bytes) :
    filled (·.fill slot key data) (txn.insertFirst limit slot key (.reserved data.length))
      = txn.insertFirst limit slot key (.bytes data) := by
  unfold insertFirst
  rcases txn.newRoot limit slot with ⟨code | ⟨⟩, rooted⟩
  · rfl
  · exact rooted.insertNew_reserved limit slot key data

/-- A key whose value is replaced, in place or in a run of its own. -/
theorem overwrite_reserved (txn : Txn) (limit slot : Nat) (key data : Bytes) (items : List Bytes)
    (run : Run) :
    filled (·.fill slot key data) (txn.overwrite limit slot key (.reserved data.length) items run)
      = txn.overwrite limit slot key (.bytes data) items run := by
  unfold overwrite
  rw [Payload.size_reserved]
  extract_lets inPlace
  split
  · exact congrArg (Except.ok (), ·) (txn.fill_reserved slot key data run)
  · exact txn.insertNew_reserved limit slot key data

/-- A value for a key whose record is known, in a database without duplicates. Such a write has no
use for flags. -/
theorem store_reserved (txn : Txn) (limit slot : Nat) (hunique : table.hasDuplicates = false)
    (key data : Bytes) (flags flags' : WriteFlags) (found : Option Record) :
    filled (·.fill slot key data) (txn.store limit slot table key (.reserved data.length) flags found)
      = txn.store limit slot table key (.bytes data) flags' found := by
  unfold store
  split
  · exact txn.insertNew_reserved limit slot key data
  · rfl
  · simp only [hunique, Bool.false_eq_true, if_false]
    exact txn.overwrite_reserved limit slot key data _ _

/-! ## Writes -/

/-- What a write meets under its key has nothing to do with the request for a buffer. -/
theorem meet_reserve (table : Table) (key : Bytes) (flags : WriteFlags) :
    meet table key (flags.union WriteFlags.reserve)
      = meet table key (flags.minus WriteFlags.reserve) := by
  have hflag : ∀ flag : WriteFlags, flag.minus WriteFlags.reserve = flag →
      (flags.union WriteFlags.reserve).contains flag
        = (flags.minus WriteFlags.reserve).contains flag := fun flag h ↦
    (flags.contains_union h).trans (flags.contains_minus h).symm
  unfold meet
  rw [hflag .append (by decide), hflag .noOverwrite (by decide)]

/-- In a database without duplicates a reservation whose buffer is filled at once is a write of the
bytes, whatever else the flags ask for: it fails alike, and it leaves the same. -/
theorem put_reserved (txn : Txn) (limit : Nat) (slots : SlotTable) (blocked : Bool) (slot : Nat)
    (hunique : ∀ table, txn.Sees slots slot table → table.hasDuplicates = false)
    (key data : Bytes) (flags : WriteFlags) :
    filled (·.fill slot key data) (txn.put limit slots blocked slot key (.reserved data.length)
        (flags.union WriteFlags.reserve))
      = txn.put limit slots blocked slot key (.bytes data) (flags.minus WriteFlags.reserve) := by
  unfold put
  split
  · rfl
  rename_i content husable
  -- the checks see no difference: the request is an accepted flag, and sizes are the same
  rw [Flags.contains_union_of_contains (by decide) flags]
  split
  · rfl
  split
  · rfl
  split
  · rfl
  rw [Payload.size_reserved]
  split
  · rfl
  split
  · split
    · exact txn.insertFirst_reserved limit slot key data
    · rfl
  rename_i loaded hload
  have hloaded : loaded.table.hasDuplicates = false :=
    hunique loaded.table ⟨content, loaded, husable, hload, rfl⟩
  dsimp only
  split
  · exact insertFirst_reserved ..
  rw [meet_reserve]
  split
  · rfl
  rcases (txn.setSlot slot loaded).touch limit slots slot with ⟨code | ⟨⟩, touched⟩
  · rfl
  · exact touched.store_reserved limit slot hloaded key data _ _ _

/-! ## Bytes that were stored -/

/-- What a transaction holds of a slot has a value alone under a key, if it holds anything. -/
def Stores (slot : Nat) (key value : Bytes) (txn : Txn) : Prop :=
  ∀ content, txn.slot? slot = some content →
    ∃ run, content.table.find? key = some (.values [value] run)

/-- A record that was inserted. -/
theorem stores_modifyTable (txn : Txn) (slot : Nat) (key value : Bytes) (run : Run) :
    (txn.modifyTable slot (·.insert key (.values [value] run))).Stores slot key value := by
  intro content hcontent
  rw [modifyTable, slot?_modifySlot] at hcontent
  obtain ⟨before, -, rfl⟩ := Option.map_eq_some_iff.mp hcontent
  exact ⟨run, Entries.find?_insert_self ..⟩

/-- A key that got its first value has it. -/
theorem stores_insertNew (h : txn.insertNew limit slot key payload = (.ok (), after)) :
    after.Stores slot key payload.content := by
  unfold insertNew at h
  split at h
  · cases (Prod.mk.inj h).1
  · obtain rfl := (Prod.mk.inj h).2
    exact stores_modifyTable _ slot key _ _

/-- The first entry of a table. -/
theorem stores_insertFirst (h : txn.insertFirst limit slot key payload = (.ok (), after)) :
    after.Stores slot key payload.content := by
  unfold insertFirst at h
  split at h
  · cases (Prod.mk.inj h).1
  · exact stores_insertNew h

/-- A key whose value was replaced has the new one. -/
theorem stores_overwrite {items : List Bytes} {run : Run}
    (h : txn.overwrite limit slot key payload items run = (.ok (), after)) :
    after.Stores slot key payload.content := by
  unfold overwrite at h
  extract_lets inPlace at h
  split at h
  · obtain rfl := (Prod.mk.inj h).2
    exact stores_modifyTable _ slot key _ _
  · exact stores_insertNew h

/-- A key whose record was known has the new value, in a database without duplicates. -/
theorem stores_store {flags : WriteFlags} {found : Option Record}
    (hunique : table.hasDuplicates = false)
    (h : txn.store limit slot table key payload flags found = (.ok (), after)) :
    after.Stores slot key payload.content := by
  unfold store at h
  split at h
  · exact stores_insertNew h
  · cases (Prod.mk.inj h).1
  · rw [hunique, if_neg Bool.false_ne_true] at h
    exact stores_overwrite h

/-- A write that succeeds in a database without duplicates leaves its value alone under the key. -/
theorem stores_put {blocked : Bool} {flags : WriteFlags}
    (h : txn.put limit slots blocked slot key payload flags = (.ok (), after))
    (hunique : ∀ table, txn.Sees slots slot table → table.hasDuplicates = false) :
    after.Stores slot key payload.content := by
  unfold put at h
  split at h
  · cases (Prod.mk.inj h).1
  rename_i content husable
  split at h
  · cases (Prod.mk.inj h).1
  split at h
  · cases (Prod.mk.inj h).1
  split at h
  · cases (Prod.mk.inj h).1
  split at h
  · cases (Prod.mk.inj h).1
  split at h
  · split at h
    · exact stores_insertFirst h
    · cases (Prod.mk.inj h).1
  rename_i loaded hload
  have hloaded := hunique loaded.table ⟨content, loaded, husable, hload, rfl⟩
  dsimp only at h
  split at h
  · exact stores_insertFirst h
  split at h
  · cases (Prod.mk.inj h).1
  split at h
  · cases (Prod.mk.inj h).1
  · exact stores_store hloaded h

end Txn

/-! ## Writes by the engine -/

variable {engine last : Engine} {handle : Nat} {flags : WriteFlags}

/-- The record of a key in what a transaction holds of a slot, whether the table can be read or
not. -/
def record? (engine : Engine) (handle slot : Nat) (key : Bytes) : Option Record :=
  (engine.txn? handle).bind fun txn ↦ (txn.slot? slot).bind (·.table.find? key)

/-- In a database without duplicates a reservation whose buffer is filled at once is a write of the
bytes. -/
theorem put_reserved
    (hunique : ∀ table, engine.table? handle slot = some table → table.hasDuplicates = false)
    (key data : Bytes) (flags : WriteFlags) :
    filled (·.fill handle slot key data)
        (engine.put handle slot key (.reserved data.length) (flags.union WriteFlags.reserve))
      = engine.put handle slot key (.bytes data) (flags.minus WriteFlags.reserve) := by
  unfold put onTxn
  cases htxn : engine.txn? handle with
  | none => rfl
  | some txn =>
    have hput := txn.put_reserved engine.pageLimit engine.slots (engine.isBlocked txn) slot
      (fun table hsees ↦ hunique table ((table?_of_txn? htxn).mpr hsees)) key data flags
    obtain ⟨huses, hprepared⟩ := txn.uses_put engine.pageLimit engine.slots (engine.isBlocked txn)
      slot key (.reserved data.length) (flags.union WriteFlags.reserve)
    dsimp only
    rw [← hput]
    rcases hcase : txn.put engine.pageLimit engine.slots (engine.isBlocked txn) slot key
      (.reserved data.length) (flags.union WriteFlags.reserve) with ⟨code | ⟨⟩, stored⟩
    · rfl
    · -- the filling finds the transaction that the reservation has put in its place
      simp only [hcase, true_implies] at huses hprepared
      have hfill := Txn.uses_fill engine.slots hprepared key data
      have hfound : (engine.replace stored).txn? handle = some stored :=
        txn?_replace_self htxn huses.kin.handle
      dsimp only [filled, fill, onTxn]
      rw [hfound]
      exact congrArg (Except.ok (), ·) (replace_replace _ hfill.kin.handle)

/-- A write that succeeds in a database without duplicates leaves its value alone under the key. If
the transaction has seen a table before, it sees that table with the value. -/
theorem put_stores
    (hunique : ∀ table, engine.table? handle slot = some table → table.hasDuplicates = false)
    (h : engine.put handle slot key payload flags = (.ok (), last)) :
    (∃ run, last.record? handle slot key = some (.values [payload.content] run)) ∧
      ∀ table, engine.table? handle slot = some table → ∃ run,
        last.table? handle slot = some (table.insert key (.values [payload.content] run)) := by
  unfold put onTxn at h
  cases htxn : engine.txn? handle with
  | none =>
    rw [htxn] at h
    cases (Prod.mk.inj h).1
  | some txn =>
    rw [htxn] at h
    dsimp only at h
    rcases hput : txn.put engine.pageLimit engine.slots (engine.isBlocked txn) slot key payload flags
      with ⟨result, stored⟩
    rw [hput] at h
    obtain ⟨rfl, rfl⟩ := Prod.mk.inj h
    have hsees : ∀ {table : Table},
        engine.table? handle slot = some table ↔ txn.Sees engine.slots slot table :=
      table?_of_txn? htxn
    have huses : Txn.Uses engine.slots slot txn stored := by
      simpa [hput] using
        (txn.uses_put engine.pageLimit engine.slots (engine.isBlocked txn) slot key payload flags).1
    have hfound : (engine.replace stored).txn? handle = some stored :=
      txn?_replace_self htxn huses.kin.handle
    have hstores := Txn.stores_put hput fun table hseen ↦ hunique table (hsees.mpr hseen)
    refine ⟨?_, fun table htable ↦ ?_⟩
    · have hheld : txn.slot? slot ≠ none := fun hnone ↦ by
        have hunusable : txn.usable? slot = none := by simp [Txn.usable?, hnone]
        rw [Txn.put, hunusable] at hput
        cases (Prod.mk.inj hput).1
      obtain ⟨content, hcontent⟩ := Option.ne_none_iff_exists'.mp (huses.slot?_ne_none hheld)
      obtain ⟨run, hrun⟩ := hstores content hcontent
      exact ⟨run, by simp [record?, hfound, hcontent, hrun]⟩
    · obtain ⟨-, -, -, run, hwrote⟩ :=
        Txn.put_wrote hput (hsees.mp htable) (hunique table htable)
      exact ⟨run, (table?_of_txn? hfound).mpr (hwrote.shows.sees engine.slots)⟩

end Engine

end MappedStore
