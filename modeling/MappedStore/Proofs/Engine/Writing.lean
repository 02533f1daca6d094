import MappedStore.Proofs.Engine.Maps
import MappedStore.Proofs.Engine.Peeking

/-!
# What writes do

The table that a successful write leaves behind its slot. A write claims pages first, which leaves
all tables alone (`Txn.Claimed`), and then changes the one table: a stored value is inserted
(`Txn.put_wrote`), a removed value is taken away (`Txn.del_found`), a key with all its values
(`Txn.del_ok`), and a clear leaves the table empty (`clear_ok`). A removal that finds nothing leaves
everything as it was (`Txn.del_missed`).
-/

namespace MappedStore.Engine

variable {slots : SlotTable} {slot other limit : Nat} {txn before after last : Txn}
  {content loaded : TxnSlot} {table : Table} {key : Bytes} {payload : Payload}

/-! ## Tables without a value -/

/-- The table without a value of a key, or without all of them. A key without values goes. -/
def Table.remove (table : Table) (key : Bytes) (asked : Option Bytes) : Table :=
  match table.find? key with
  | some (.values items run) =>
      if (asked.elim [] items.erase).isEmpty then table.erase key
      else table.insert key (.values (asked.elim [] items.erase) run)
  | _ => table

namespace Txn

/-! ## Tables at hand -/

/-- A transaction has a table at hand behind a slot that it can use. -/
def Shows (slot : Nat) (txn : Txn) (table : Table) : Prop :=
  txn.idle = false ∧ ∃ content, txn.slot? slot = some content ∧ content.usable = true ∧
    content.stale = false ∧ content.table = table

/-- What a transaction has at hand it sees. -/
theorem Shows.sees (h : txn.Shows slot table) (slots : SlotTable) : txn.Sees slots slot table := by
  obtain ⟨hidle, content, hslot, husable, hstale, htable⟩ := h
  exact ⟨content, content, by simp [usable?, hidle, hslot, husable], load_read hstale, htable⟩

/-- What a transaction has at hand is behind a slot that it holds. -/
theorem Shows.slot?_ne (h : txn.Shows slot table) : txn.slot? slot ≠ none := by
  obtain ⟨-, content, hslot, -⟩ := h
  simp [hslot]

/-- A table that could be read is at hand once it has been put in its place. -/
theorem shows_load (husable : txn.usable? slot = some content)
    (hload : txn.load slots slot content = .ok loaded) :
    (txn.setSlot slot loaded).Shows slot loaded.table := by
  obtain ⟨hslot, hready, hidle⟩ := slot?_of_usable? husable
  obtain ⟨husable', hstale⟩ := load_usable hload
  refine ⟨?_, loaded, by simp [slot?_setSlot hslot], husable'.trans hready, hstale, rfl⟩
  rw [← hidle]
  unfold setSlot
  split <;> rfl

/-- What a transaction holds of the slots after a change of one. -/
theorem slot?_modifySlot_of_ne (txn : Txn) (change : TxnSlot → TxnSlot) (hne : other ≠ slot) :
    (txn.modifySlot slot change).slot? other = txn.slot? other := by
  unfold modifySlot
  cases hslot : txn.slot? slot with
  | none => rfl
  | some content => simp [slot?_setSlot hslot, hne]

/-- A change of a slot is no concern of the marks on a transaction. -/
theorem marks_modifySlot (txn : Txn) (slot : Nat) (change : TxnSlot → TxnSlot) :
    (txn.modifySlot slot change).idle = txn.idle ∧
      (txn.modifySlot slot change).broken = txn.broken ∧
      (txn.modifySlot slot change).changed = txn.changed := by
  unfold modifySlot setSlot
  split
  · split <;> exact ⟨rfl, rfl, rfl⟩
  · exact ⟨rfl, rfl, rfl⟩

/-- A change of the table behind a slot, when the table is at hand. -/
theorem Shows.modifySlot (h : txn.Shows slot table) (change : TxnSlot → TxnSlot)
    (husable : ∀ content, (change content).usable = content.usable)
    (hstale : ∀ content, (change content).stale = content.stale) {table' : Table}
    (htable : ∀ content : TxnSlot, content.table = table → (change content).table = table') :
    (txn.modifySlot slot change).Shows slot table' := by
  obtain ⟨hidle, content, hslot, hready, hread, hcontent⟩ := h
  refine ⟨(marks_modifySlot txn slot change).1.trans hidle, change content, ?_,
    (husable content).trans hready, (hstale content).trans hread, htable content hcontent⟩
  simp [slot?_modifySlot, hslot]

/-! ## Claims -/

/-- A transaction for which pages were claimed. It has its tables still, and it is not broken by
it. -/
structure Claimed (before after : Txn) : Prop where
  shows : ∀ slot table, before.Shows slot table → after.Shows slot table
  broken : after.broken = before.broken
  changed : before.changed = true → after.changed = true

/-- Nothing was claimed. -/
theorem Claimed.refl (txn : Txn) : Claimed txn txn := ⟨fun _ _ ↦ id, rfl, id⟩

/-- Claims in turn. -/
theorem Claimed.trans (h : Claimed before after) (h' : Claimed after last) : Claimed before last where
  shows slot table hshows := h'.shows slot table (h.shows slot table hshows)
  broken := h'.broken.trans h.broken
  changed := h'.changed ∘ h.changed

/-- A transaction that was changed. -/
theorem claimed_changed (txn : Txn) : Claimed txn { txn with changed := true } where
  shows _ _ := id
  broken := rfl
  changed _ := rfl

/-- Marks on a slot. -/
theorem claimed_modifySlot (txn : Txn) (slot : Nat) (change : TxnSlot → TxnSlot)
    (husable : ∀ content, (change content).usable = content.usable)
    (hstale : ∀ content, (change content).stale = content.stale)
    (htable : ∀ content, (change content).table = content.table) :
    Claimed txn (txn.modifySlot slot change) where
  shows other table hshows := by
    by_cases hother : other = slot
    · subst hother
      exact hshows.modifySlot change husable hstale fun content hcontent ↦
        (htable content).trans hcontent
    · obtain ⟨hidle, content, hslot, hrest⟩ := hshows
      exact ⟨(marks_modifySlot txn slot change).1.trans hidle, content,
        (slot?_modifySlot_of_ne txn change hother).trans hslot, hrest⟩
  broken := (marks_modifySlot txn slot change).2.1
  changed hchanged := (marks_modifySlot txn slot change).2.2.trans hchanged

/-- Pages that could be claimed. -/
theorem claim_ok {pages : Nat} (h : txn.claim limit pages = (.ok (), after)) : Claimed txn after := by
  unfold claim at h
  split at h
  · exact (Prod.mk.inj h).2 ▸ .refl txn
  · split at h
    · simp [refuse] at h
    · exact (Prod.mk.inj h).2 ▸ ⟨fun _ _ ↦ id, rfl, id⟩

/-- A page that could be claimed for a tree. -/
theorem touchTree_ok (h : txn.touchTree limit slot = (.ok (), after)) :
    Claimed txn after ∧ (txn.slot? slot ≠ none → after.changed = true) := by
  unfold touchTree at h
  split at h
  · rename_i hslot
    exact ⟨(Prod.mk.inj h).2 ▸ .refl txn, fun hne ↦ absurd hslot hne⟩
  · split at h
    · obtain rfl := (Prod.mk.inj h).2
      exact ⟨claimed_changed txn, fun _ ↦ rfl⟩
    · split at h
      · simp at h
      · rename_i hclaim
        obtain rfl := (Prod.mk.inj h).2
        have hmark := claimed_modifySlot ‹Txn› slot ({ · with touched := true }) (fun _ ↦ rfl)
          (fun _ ↦ rfl) fun _ ↦ rfl
        exact ⟨((claim_ok hclaim).trans hmark).trans (claimed_changed _), fun _ ↦ rfl⟩

/-- A slot that could be prepared for a change. -/
theorem touch_ok (h : txn.touch limit slots slot = (.ok (), after)) (hslot : txn.slot? slot ≠ none) :
    Claimed txn after ∧ after.changed = true := by
  unfold touch at h
  split at h
  · rename_i hnone
    exact absurd hnone hslot
  · split at h
    · exact (touchTree_ok h).imp_right fun hchanged ↦ hchanged hslot
    · split at h
      · simp [refuse] at h
      · split at h
        · simp at h
        · rename_i touched htouch
          have hmain := touchTree_ok htouch
          have hmark : Claimed touched (touched.modifySlot slot ({ · with dirty := true })) :=
            claimed_modifySlot touched slot _ (fun _ ↦ rfl) (fun _ ↦ rfl) fun _ ↦ rfl
          have htree := (touchTree_ok h).1
          refine ⟨(hmain.1.trans hmark).trans htree, htree.changed (hmark.changed (hmain.2 ?_))⟩
          simp [slot?, mainSlot]

/-- A slot that could not be prepared for a change. -/
theorem touch_error {code : Code} (h : txn.touch limit slots slot = (.error code, after)) :
    code = Condition.mapFull.code ∨ code = Condition.badDbi.code := by
  have hclaim : ∀ (txn after : Txn) (pages : Nat) (code : Code),
      txn.claim limit pages = (.error code, after) → code = Condition.mapFull.code := by
    intro txn after pages code h
    unfold claim at h
    split at h
    · simp at h
    · split at h
      · exact (Except.error.inj (Prod.mk.inj h).1).symm
      · simp at h
  have htree : ∀ (txn after : Txn) (slot : Nat) (code : Code),
      txn.touchTree limit slot = (.error code, after) → code = Condition.mapFull.code := by
    intro txn after slot code h
    unfold touchTree at h
    split at h
    · simp at h
    · split at h
      · simp at h
      · split at h
        · rename_i hfull
          exact (Except.error.inj (Prod.mk.inj h).1) ▸ hclaim _ _ _ _ hfull
        · simp at h
  unfold touch at h
  split at h
  · simp at h
  · split at h
    · exact .inl (htree _ _ _ _ h)
    · split at h
      · exact .inr (Except.error.inj (Prod.mk.inj h).1).symm
      · split at h
        · rename_i hfull
          exact .inl ((Except.error.inj (Prod.mk.inj h).1) ▸ htree _ _ _ _ hfull)
        · exact .inl (htree _ _ _ _ h)

/-- Pages that could be claimed for an entry. -/
theorem claimEntry_ok {size : Nat} {run : Run}
    (h : txn.claimEntry limit key size = (.ok run, after)) : Claimed txn after := by
  unfold claimEntry at h
  dsimp only at h
  split at h
  · split at h
    · simp at h
    · rename_i hclaim
      exact (Prod.mk.inj h).2 ▸ claim_ok hclaim
  · split at h
    · simp at h
    · rename_i hclaim
      have hlast := claim_ok hclaim
      exact (Prod.mk.inj h).2 ▸ ⟨hlast.shows, hlast.broken, hlast.changed⟩

/-- A page that could be given to an empty table. -/
theorem newRoot_ok (h : txn.newRoot limit slot = (.ok (), after)) :
    Claimed txn after ∧ after.changed = true := by
  unfold newRoot at h
  split at h
  · simp at h
  · rename_i hclaim
    obtain rfl := (Prod.mk.inj h).2
    have hmark := claimed_modifySlot ‹Txn› slot ({ · with dirty := true, touched := true })
      (fun _ ↦ rfl) (fun _ ↦ rfl) fun _ ↦ rfl
    exact ⟨((claim_ok hclaim).trans hmark).trans (claimed_changed _), rfl⟩

/-! ## Stored values -/

/-- A transaction that has written a table behind a slot. -/
structure Wrote (slot : Nat) (table : Table) (before after : Txn) : Prop where
  shows : after.Shows slot table
  broken : after.broken = before.broken
  changed : before.changed = true → after.changed = true

/-- What was claimed before a write belongs to it. -/
theorem Claimed.wrote (h : Claimed before after) (hwrote : Wrote slot table after last) :
    Wrote slot table before last where
  shows := hwrote.shows
  broken := hwrote.broken.trans h.broken
  changed := hwrote.changed ∘ h.changed

/-- A change of the table that is at hand behind a slot. -/
theorem wrote_modifyTable (h : txn.Shows slot table) (change : Table → Table) :
    Wrote slot (change table) txn (txn.modifyTable slot change) where
  shows := h.modifySlot (fun content ↦ { content with table := change content.table })
    (fun _ ↦ rfl) (fun _ ↦ rfl) fun _ hcontent ↦ by rw [hcontent]
  broken := (marks_modifySlot txn slot _).2.1
  changed hchanged := (marks_modifySlot txn slot _).2.2.trans hchanged

/-- A key that got its first value. -/
theorem insertNew_ok (h : txn.insertNew limit slot key payload = (.ok (), after))
    (hshows : txn.Shows slot table) :
    ∃ run, Wrote slot (table.insert key (.values [payload.content] run)) txn after := by
  unfold insertNew at h
  split at h
  · simp at h
  · rename_i run claimed hclaim
    have hclaimed := claimEntry_ok hclaim
    obtain rfl := (Prod.mk.inj h).2
    exact ⟨run, hclaimed.wrote (wrote_modifyTable (hclaimed.shows slot table hshows) fun table ↦
      table.insert key (.values [payload.content] run))⟩

/-- A key whose value was replaced. -/
theorem overwrite_ok {items : List Bytes} {run : Run}
    (h : txn.overwrite limit slot key payload items run = (.ok (), after))
    (hshows : txn.Shows slot table) :
    ∃ run, Wrote slot (table.insert key (.values [payload.content] run)) txn after := by
  unfold overwrite at h
  extract_lets inPlace at h
  split at h
  · obtain rfl := (Prod.mk.inj h).2
    exact ⟨run, wrote_modifyTable hshows fun table ↦
      table.insert key (.values [payload.content] run)⟩
  · exact insertNew_ok h hshows

/-- An empty table that got its first entry. -/
theorem insertFirst_ok (h : txn.insertFirst limit slot key payload = (.ok (), after))
    (hshows : txn.Shows slot table) :
    ∃ run, Wrote slot (table.insert key (.values [payload.content] run)) txn after ∧
      after.changed = true := by
  unfold insertFirst at h
  split at h
  · simp at h
  · rename_i hroot
    obtain ⟨hclaimed, hchanged⟩ := newRoot_ok hroot
    obtain ⟨run, hwrote⟩ := insertNew_ok h (hclaimed.shows slot table hshows)
    exact ⟨run, hclaimed.wrote hwrote, hwrote.changed hchanged⟩

/-- A key without duplicates that was stored: it led to no named database. -/
theorem store_ok {flags : WriteFlags} {found : Option Record}
    (hunique : table.hasDuplicates = false)
    (h : txn.store limit slot table key payload flags found = (.ok (), after))
    (hshows : txn.Shows slot table) :
    found ≠ some .database ∧
      ∃ run, Wrote slot (table.insert key (.values [payload.content] run)) txn after := by
  unfold store at h
  split at h
  · exact ⟨by simp, insertNew_ok h hshows⟩
  · simp [refuse] at h
  · simp only [hunique] at h
    exact ⟨by simp, overwrite_ok h hshows⟩

/-- What a transaction sees when it has a slot to use. -/
theorem Sees.usable (h : txn.Sees slots slot table) (husable : txn.usable? slot = some content) :
    ∃ loaded, txn.load slots slot content = .ok loaded ∧ loaded.table = table := by
  obtain ⟨content', loaded, husable', hload, htable⟩ := h
  obtain rfl := Option.some.inj (husable'.symm.trans husable)
  exact ⟨loaded, hload, htable⟩

/-- A table that is put in its place is a claim. -/
theorem claimed_load (husable : txn.usable? slot = some content)
    (hload : txn.load slots slot content = .ok loaded) : Claimed txn (txn.setSlot slot loaded) := by
  obtain ⟨hslot, -, hidle⟩ := slot?_of_usable? husable
  have hmarks : (txn.setSlot slot loaded).idle = txn.idle ∧
      (txn.setSlot slot loaded).broken = txn.broken ∧
      (txn.setSlot slot loaded).changed = txn.changed := by
    unfold setSlot
    split <;> exact ⟨rfl, rfl, rfl⟩
  refine ⟨fun other shown hshows ↦ ?_, hmarks.2.1, hmarks.2.2.trans⟩
  obtain ⟨-, kept, hkept, hready, hread, htable⟩ := hshows
  refine ⟨hmarks.1.trans hidle, kept, ?_, hready, hread, htable⟩
  rw [slot?_setSlot hslot]
  split
  · -- a table that is at hand is not read again
    rename_i hsame
    obtain rfl : content = kept := Option.some.inj (hslot.symm.trans (hsame ▸ hkept))
    rw [(load_follows hload).2.2 hread]
  · exact hkept

/-- Without flags a write meets whatever stands under its key. -/
theorem meet_empty (table : Table) (key : Bytes) : meet table key .empty = .ok (table.find? key) := by
  unfold meet
  cases hfound : table.find? key <;> rfl

/-- What is read into a slot through which a table is seen is that table. -/
theorem Sees.table_of_load (hsees : txn.Sees slots slot table)
    (husable : txn.usable? slot = some content) (hload : txn.load slots slot content = .ok loaded) :
    (txn.setSlot slot loaded).Shows slot loaded.table ∧ loaded.table = table := by
  obtain ⟨other, hother, htable⟩ := hsees.usable husable
  obtain rfl := Except.ok.inj (hload.symm.trans hother)
  exact ⟨shows_load husable hload, htable⟩

/-- A value was stored in a database without duplicates: the table was empty, or the flags let the
write have what it met under its key. -/
theorem put_wrote {blocked : Bool} {flags : WriteFlags}
    (h : txn.put limit slots blocked slot key payload flags = (.ok (), after))
    (hsees : txn.Sees slots slot table) (hunique : table.hasDuplicates = false) :
    blocked = false ∧
      (table.entries = [] ∨ ∃ found, meet table key flags = .ok found ∧ found ≠ some .database) ∧
      after.changed = true ∧
      ∃ run, Wrote slot (table.insert key (.values [payload.content] run)) txn after := by
  have houtcome := txn.put_outcome limit slots blocked slot key payload flags
  rw [h] at houtcome
  cases houtcome with
  | @seeded content condition _ hwritable _ hunread =>
      obtain ⟨loaded, hload, -⟩ := hsees.usable hwritable.usable
      rw [hload] at hunread
      cases hunread
  | @first content loaded _ hwritable _ hload hempty hfirst =>
      obtain ⟨hshows, rfl⟩ := hsees.table_of_load hwritable.usable hload
      obtain ⟨run, hwrote, hchanged⟩ := insertFirst_ok hfirst hshows
      exact ⟨hwritable.unblocked, .inl (List.isEmpty_iff.mp hempty), hchanged, run,
        (claimed_load hwritable.usable hload).wrote hwrote⟩
  | @stored content loaded found touched _ hwritable _ hload hmeet htouch hstore =>
      obtain ⟨hshows, rfl⟩ := hsees.table_of_load hwritable.usable hload
      obtain ⟨hclaimed, hchanged⟩ := touch_ok htouch hshows.slot?_ne
      obtain ⟨hfound, run, hwrote⟩ := store_ok hunique hstore (hclaimed.shows slot _ hshows)
      exact ⟨hwritable.unblocked, .inr ⟨found, hmeet, hfound⟩, hwrote.changed hchanged, run,
        (claimed_load hwritable.usable hload).wrote (hclaimed.wrote hwrote)⟩

/-- A value was stored under a key without flags, in a database without duplicates. -/
theorem put_ok {blocked : Bool}
    (h : txn.put limit slots blocked slot key payload .empty = (.ok (), after))
    (hsees : txn.Sees slots slot table) (hunique : table.hasDuplicates = false) :
    blocked = false ∧ table.find? key ≠ some .database ∧ after.changed = true ∧
      ∃ run, Wrote slot (table.insert key (.values [payload.content] run)) txn after := by
  obtain ⟨hblocked, hmet, hchanged, hwrote⟩ := put_wrote h hsees hunique
  refine ⟨hblocked, ?_, hchanged, hwrote⟩
  rcases hmet with hempty | ⟨found, hmeet, hfound⟩
  · simp [Table.find?, hempty, Entries.find?]
  · rw [meet_empty] at hmeet
    rwa [Except.ok.inj hmeet]

/-! ## Removals -/

/-- A removal that succeeds has found the key with values of its own, the one that was asked for
among them, and leaves the table without them. -/
theorem del_found {blocked : Bool} {item : Option Bytes}
    (h : txn.del limit slots blocked slot key item = (.ok (), after))
    (hsees : txn.Sees slots slot table) :
    blocked = false ∧
      (∃ items run, table.find? key = some (.values items run) ∧
        ∀ value, table.asked item = some value → value ∈ items) ∧
      after.changed = true ∧ Wrote slot (table.remove key (table.asked item)) txn after := by
  have houtcome := txn.del_outcome limit slots blocked slot key item
  rw [h] at houtcome
  cases houtcome with
  | @removed content loaded items run touched hwritable _ hload hfind hlisted htouch =>
      obtain ⟨hshows, rfl⟩ := hsees.table_of_load hwritable.usable hload
      obtain ⟨hclaimed, hchanged⟩ := touch_ok htouch hshows.slot?_ne
      have hwrote := wrote_modifyTable (hclaimed.shows slot _ hshows) fun table ↦
        if ((loaded.table.asked item).elim [] items.erase).isEmpty then table.erase key
        else table.insert key (.values ((loaded.table.asked item).elim [] items.erase) run)
      refine ⟨hwritable.unblocked, ⟨items, run, hfind, hlisted⟩, hwrote.changed hchanged, ?_⟩
      rw [Table.remove, hfind]
      exact (claimed_load hwritable.usable hload).wrote (hclaimed.wrote hwrote)

/-- A removal that reports that there was nothing to remove has only read the table. It has no
record of the key, or not the value that was asked for. -/
theorem del_missed {blocked : Bool} {item : Option Bytes}
    (h : txn.del limit slots blocked slot key item = (.error Condition.notFound.code, after))
    (hsees : txn.Sees slots slot table) :
    blocked = false ∧
      (table.find? key = none ∨ ∃ items run value, table.find? key = some (.values items run) ∧
        table.asked item = some value ∧ value ∉ items) ∧
      Peeked slots txn after := by
  have houtcome := txn.del_outcome limit slots blocked slot key item
  generalize hanswer : (Except.error Condition.notFound.code : Except Code Unit) = answer at h
  rw [h] at houtcome
  cases houtcome with
  | unusable | reader | blocked | nameless | database => exact absurd hanswer (by decide)
  | unread hwritable _ hunread =>
      obtain ⟨loaded, hload, -⟩ := hsees.usable hwritable.usable
      rw [hload] at hunread
      cases hunread
  | missed hwritable _ hload hfind =>
      obtain ⟨-, rfl⟩ := hsees.table_of_load hwritable.usable hload
      exact ⟨hwritable.unblocked, .inl hfind, .loaded hwritable.usable hload⟩
  | @unlisted content loaded items run value hwritable _ hload hfind hasked hmissing =>
      obtain ⟨-, rfl⟩ := hsees.table_of_load hwritable.usable hload
      exact ⟨hwritable.unblocked, .inr ⟨items, run, value, hfind, hasked, hmissing⟩,
        .loaded hwritable.usable hload⟩
  | untouched _ _ _ htouch =>
      -- preparing the slot for a change fails with other codes than that of an absent key
      obtain rfl := Except.error.inj hanswer
      rcases touch_error htouch with hcode | hcode <;> simp at hcode
  | removed => cases hanswer

/-- A key was removed with all its values: it had values of its own. -/
theorem del_ok {blocked : Bool}
    (h : txn.del limit slots blocked slot key none = (.ok (), after))
    (hsees : txn.Sees slots slot table) :
    blocked = false ∧ (∃ items run, table.find? key = some (.values items run)) ∧
      after.changed = true ∧ Wrote slot (table.erase key) txn after := by
  obtain ⟨hblocked, ⟨items, run, hfound, -⟩, hchanged, hwrote⟩ := del_found h hsees
  rw [table.asked_none, Table.remove, hfound] at hwrote
  exact ⟨hblocked, ⟨items, run, hfound⟩, hchanged, hwrote⟩

/-- A removal that reports that there was nothing to remove has only read the table, which has no
record of the key. -/
theorem del_absent {blocked : Bool}
    (h : txn.del limit slots blocked slot key none = (.error Condition.notFound.code, after))
    (hsees : txn.Sees slots slot table) :
    blocked = false ∧ table.find? key = none ∧ Peeked slots txn after := by
  obtain ⟨hblocked, hmissed, hpeeked⟩ := del_missed h hsees
  rcases hmissed with habsent | ⟨items, run, value, -, hvalue, -⟩
  · exact ⟨hblocked, habsent, hpeeked⟩
  · rw [table.asked_none] at hvalue
    cases hvalue

end Txn

/-! ## Clears -/

variable {engine result : Engine} {handle : Nat}

/-- A database was emptied: the transaction is left with an empty table behind the slot. -/
theorem clear_ok (h : engine.drop handle slot false = (.ok (), result))
    (htxn : engine.txn? handle = some txn) (hsees : txn.Sees engine.slots slot table) :
    engine.isBlocked txn = false ∧ ∃ cleared, result = engine.replace cleared ∧
      Txn.Uses engine.slots slot txn cleared ∧ cleared.changed = true ∧
      Txn.Wrote slot table.clear txn cleared := by
  have houtcome := engine.drop_outcome handle slot false
  generalize hanswer : ((Except.ok () : Except Code Unit), result) = answer at h
  rw [h] at houtcome
  cases houtcome with
  | unknown | unusable | reader | outdated | blocked | unread => cases hanswer
  | dropped _ _ hdelete => cases hdelete
  | @cleared found content hfound hwritable =>
      obtain rfl := Option.some.inj (htxn.symm.trans hfound)
      obtain ⟨loaded, hload, htable⟩ := hsees.usable hwritable.usable
      have hput : txn.tryLoad engine.slots slot content = txn.setSlot slot loaded := by
        simp [Txn.tryLoad, hload]
      rw [hput] at hanswer
      have hshows := Txn.shows_load hwritable.usable hload
      have hmarks := Txn.marks_modifySlot (txn.setSlot slot loaded) slot fun content ↦
        { content with dirty := true, table := content.table.clear }
      have hclaimed := Txn.claimed_load hwritable.usable hload
      refine ⟨hwritable.unblocked, _, (Prod.mk.inj hanswer).2, ?_, rfl, ?_,
        hmarks.2.1.trans hclaimed.broken, fun _ ↦ rfl⟩
      · exact (Txn.uses_load (Txn.slot?_of_usable? hwritable.usable).1 hload).trans
          (uses_clear _ _ slot)
      · exact hshows.modifySlot (fun content ↦
          { content with dirty := true, table := content.table.clear }) (fun _ ↦ rfl) (fun _ ↦ rfl)
          fun content hcontent ↦ by rw [hcontent, htable]

end MappedStore.Engine
