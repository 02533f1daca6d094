import MappedStore.Proofs.Engine.Turns

/-!
# Reads through a slot

A transaction reads the table of a slot when it first needs it, and from then on it has the table.
What it would read is decided by its snapshot and by the name that occupies the slot
(`Txn.load_stale`); what it sees through the slot (`Txn.Sees`) is the one table or the other. Reads
change nothing else about a transaction (`Txn.HasRead`), so they change nothing that it sees.
-/

namespace MappedStore.Engine

variable {slots slots' : SlotTable} {slot other : Nat} {txn before after last : Txn}
  {content loaded : TxnSlot} {table : Table}

/-! ## Looking up databases -/

/-- The table of a named database, under the flags that it is known to have. -/
def Snapshot.lookup (snapshot : Snapshot) (name : Bytes) (flags : DbFlags) :
    Except Condition Table :=
  match snapshot.main.find? name with
  | none => .error .notFound
  | some (.values ..) => .error .incompatible
  | some .database =>
      if (snapshot.table name).flags ≠ flags then .error .incompatible
      else .ok (snapshot.table name)

/-- A database that is found is the one of the name. -/
theorem Snapshot.table_of_lookup {snapshot : Snapshot} {name : Bytes} {flags : DbFlags}
    (h : snapshot.lookup name flags = .ok table) : table = snapshot.table name := by
  unfold lookup at h
  split at h
  · simp at h
  · simp at h
  · split at h
    · simp at h
    · exact (Except.ok.inj h).symm

/-- A database that the main table records for the occupant of a slot is found, if the flags are
those that it has. -/
theorem Txn.lookup_of_recorded (h : txn.recorded slots slot = some table) (flags : DbFlags) :
    txn.snapshot.lookup (slots.info slot).name flags =
      if table.flags ≠ flags then .error .incompatible else .ok table := by
  unfold recorded at h
  split at h
  · rename_i hfound
    obtain rfl := Option.some.inj h
    unfold Snapshot.lookup
    rw [show txn.snapshot.main.find? (slots.info slot).name = _ from hfound]
  · simp at h

/-- Reading a stale slot whose occupant has not changed gives what the snapshot has under the name
of the occupant. -/
theorem Txn.load_stale (hstale : content.stale = true)
    (hoccupied : txn.isOutdated slots slot content = false) :
    txn.load slots slot content =
      (txn.snapshot.lookup (slots.info slot).name content.table.flags).map fun table ↦
        { content with stale := false, unread := false, table := table } := by
  have hmain : ∀ name, txn.snapshot.main.find? name = txn.main.table.find? name := fun _ ↦ rfl
  unfold Txn.load Snapshot.lookup
  simp only [hstale, hoccupied, Bool.not_true, Bool.false_eq_true, if_false, hmain]
  cases txn.main.table.find? (slots.info slot).name with
  | none => rfl
  | some record =>
      cases record with
      | values items run => rfl
      | database =>
          dsimp only
          split <;> rfl

/-- A transaction that only reads follows the counters of the engine. -/
theorem Txn.isOutdated_of_readOnly (h : txn.readOnly = true) (slots : SlotTable) (slot : Nat)
    (content : TxnSlot) : txn.isOutdated slots slot content = false := by
  simp [Txn.isOutdated, h]

/-- A slot that has been read is not read again. -/
theorem Txn.load_read (h : content.stale = false) : txn.load slots slot content = .ok content := by
  simp [Txn.load, h]

/-! ## Transactions after reads -/

/-- A transaction after some reads: it has read the tables of some slots. -/
structure Txn.HasRead (before after : Txn) : Prop where
  kin : Txn.Kin before after
  broken : after.broken = before.broken
  main : after.main = before.main
  tables : after.tables = before.tables
  unread : ∀ (index : Nat) (content : TxnSlot), after.named[index]? = some content →
    content.stale = true → before.named[index]? = some content

namespace Txn.HasRead

/-- A transaction before any reads. -/
theorem refl (txn : Txn) : HasRead txn txn := ⟨.refl txn, rfl, rfl, rfl, fun _ _ h _ ↦ h⟩

/-- Reads in turn. -/
theorem trans (h : HasRead before after) (h' : HasRead after last) : HasRead before last where
  kin := h.kin.trans h'.kin
  broken := h'.broken.trans h.broken
  main := h'.main.trans h.main
  tables := h'.tables.trans h.tables
  unread index content hcontent hstale :=
    h.unread index content (h'.unread index content hcontent hstale) hstale

/-- Reads leave the snapshot. -/
theorem snapshot (h : HasRead before after) : after.snapshot = before.snapshot := by
  simp [Txn.snapshot, h.main, h.tables]

/-- What can be read does not depend on what has been read. -/
theorem load_eq (h : HasRead before after) (slots : SlotTable) (slot : Nat) (content : TxnSlot) :
    after.load slots slot content = before.load slots slot content := by
  simp [Txn.load, Txn.isOutdated, h.kin.readOnly, h.main, h.snapshot]

/-- A slot that is unread after some reads was so before. -/
theorem slot?_unread (h : HasRead before after) (hcontent : after.slot? slot = some content)
    (hstale : content.stale = true) : before.slot? slot = some content := by
  rcases slot with _ | _ | index
  · simp [Txn.slot?] at hcontent
  · rw [← hcontent]
    exact congrArg some h.main.symm
  · exact h.unread index content hcontent hstale

end Txn.HasRead

/-- A transaction after one read, which may have read the table of a slot. -/
inductive Txn.Peeked (slots : SlotTable) (txn : Txn) : Txn → Prop where
  | same : Peeked slots txn txn
  | loaded {slot : Nat} {content loaded : TxnSlot} (husable : txn.usable? slot = some content)
      (hload : txn.load slots slot content = .ok loaded) : Peeked slots txn (txn.setSlot slot loaded)

/-- A read of a value. -/
theorem Txn.peeked_get (txn : Txn) (slots : SlotTable) (blocked : Bool) (slot : Nat)
    (key : Bytes) : Peeked slots txn (txn.get slots blocked slot key).2 := by
  have h := txn.get_outcome slots blocked slot key
  generalize txn.get slots blocked slot key = answer at h ⊢
  cases h with
  | unusable | blocked | unread => exact .same
  | nameless husable _ hload | missed husable _ hload | found husable _ hload =>
      exact .loaded husable hload

/-- A question for figures. -/
theorem Txn.peeked_stat (txn : Txn) (slots : SlotTable) (blocked : Bool) (slot : Nat) :
    Peeked slots txn (txn.stat slots blocked slot).2 := by
  have h := txn.stat_outcome slots blocked slot
  generalize txn.stat slots blocked slot = answer at h ⊢
  cases h with
  | unusable | blocked | unread => exact .same
  | answered husable _ hload => exact .loaded husable hload

/-- What a transaction holds of a slot that was put in its place, and of the others. -/
theorem Txn.slot?_setSlot (hslot : txn.slot? slot = some content) (loaded : TxnSlot) (other : Nat) :
    (txn.setSlot slot loaded).slot? other =
      if other = slot then some loaded else txn.slot? other := by
  rcases slot with _ | _ | index
  · simp [Txn.slot?] at hslot
  · rcases other with _ | _ | other <;> simp [Txn.slot?, Txn.setSlot]
  · have hlength : index < txn.named.length := (List.getElem?_eq_some_iff.mp hslot).1
    rcases other with _ | _ | other
    · simp [Txn.slot?]
    · simp [Txn.slot?, Txn.setSlot]
    · by_cases hother : other = index
      · simp [Txn.slot?, Txn.setSlot, hother, hlength]
      · simp [Txn.slot?, Txn.setSlot, hother, Ne.symm hother]

/-- A slot with its table read can be used as before. -/
theorem Txn.load_usable (h : txn.load slots slot content = .ok loaded) :
    loaded.usable = content.usable ∧ loaded.stale = false :=
  ⟨(load_follows h).1.usable, (load_follows h).2.1⟩

/-- A read leaves the handle of a transaction. -/
theorem Txn.Peeked.handle (h : Txn.Peeked slots txn after) : after.handle = txn.handle := by
  cases h with
  | same => rfl
  | loaded =>
      unfold Txn.setSlot
      split <;> rfl

/-- One read is a read. -/
theorem Txn.Peeked.hasRead (h : Txn.Peeked slots txn after) (hmain : txn.main.stale = false) :
    Txn.HasRead txn after := by
  cases h with
  | same => exact .refl txn
  | @loaded slot content loaded husable hload =>
      obtain ⟨hslot, -, -⟩ := slot?_of_usable? husable
      rcases slot with _ | _ | index
      · simp [Txn.slot?] at hslot
      · obtain rfl : txn.main = content := Option.some.inj hslot
        obtain rfl := (load_follows hload).2.2 hmain
        exact .refl txn
      · refine ⟨⟨rfl, rfl, rfl, rfl, rfl⟩, rfl, rfl, rfl, fun other kept hkept hstale ↦ ?_⟩
        have hset := Txn.slot?_setSlot hslot loaded (other + 2)
        have hkept' : (txn.setSlot (index + 2) loaded).slot? (other + 2) = some kept := hkept
        rw [hset] at hkept'
        split at hkept'
        · obtain rfl := Option.some.inj hkept'
          simp [(Txn.load_usable hload).2] at hstale
        · exact hkept'

/-! ## What a transaction sees -/

/-- The table that a transaction sees through a slot: it has it, or would read it now. -/
def Txn.Sees (slots : SlotTable) (slot : Nat) (txn : Txn) (table : Table) : Prop :=
  ∃ content loaded, txn.usable? slot = some content ∧
    txn.load slots slot content = .ok loaded ∧ loaded.table = table

/-- A slot of which a transaction has not read the table yet. -/
def Txn.Unread (txn : Txn) (slot : Nat) : Prop :=
  ∃ content, txn.slot? slot = some content ∧ content.stale = true

/-- A read changes nothing that a transaction sees. -/
theorem Txn.Sees.peeked (h : txn.Sees slots slot table) (hpeeked : Txn.Peeked slots txn after)
    (hmain : txn.main.stale = false) : after.Sees slots slot table := by
  have hread := hpeeked.hasRead hmain
  obtain ⟨content, loaded, husable, hload, htable⟩ := h
  obtain ⟨hslot, hready, hidle⟩ := slot?_of_usable? husable
  cases hpeeked with
  | same => exact ⟨content, loaded, husable, hload, htable⟩
  | @loaded other kept read hkept hreadLoad =>
      obtain ⟨hother, -, -⟩ := slot?_of_usable? hkept
      have hidle' : (txn.setSlot other read).idle = false := hread.kin.idle.trans hidle
      have hset := Txn.slot?_setSlot hother read slot
      by_cases hsame : slot = other
      · subst hsame
        obtain rfl : kept = content := Option.some.inj (hkept.symm.trans husable)
        obtain rfl : read = loaded := Except.ok.inj (hreadLoad.symm.trans hload)
        obtain ⟨husable', hstale⟩ := Txn.load_usable hload
        refine ⟨read, read, ?_, Txn.load_read hstale, htable⟩
        simp [Txn.usable?, hidle', hset, husable', hready]
      · refine ⟨content, loaded, ?_, (hread.load_eq slots slot content).trans hload, htable⟩
        simp [Txn.usable?, hidle', hset, hsame, hslot, hready]

/-- A transaction that only reads sees the same table as long as the occupant of the slot stays, and
for good once it has read the table. -/
theorem Txn.Sees.of_occupant (h : txn.Sees slots slot table) (hreader : txn.readOnly = true)
    (hname : txn.Unread slot → (slots'.info slot).name = (slots.info slot).name) :
    txn.Sees slots' slot table := by
  obtain ⟨content, loaded, husable, hload, htable⟩ := h
  refine ⟨content, loaded, husable, ?_, htable⟩
  rw [← hload]
  cases hstale : content.stale with
  | false => rw [Txn.load_read hstale, Txn.load_read hstale]
  | true =>
      have hunread : txn.Unread slot := ⟨content, (slot?_of_usable? husable).1, hstale⟩
      rw [Txn.load_stale hstale (Txn.isOutdated_of_readOnly hreader _ _ _),
        Txn.load_stale hstale (Txn.isOutdated_of_readOnly hreader _ _ _), hname hunread]

end MappedStore.Engine
