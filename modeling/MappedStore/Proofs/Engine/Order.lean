import MappedStore.Proofs.Engine.Reserving

/-!
# Tables in order

The keys of a table stand once each, in the order that its flags ask for, and lead to one value each
unless keys may have several (`Table.Orderly`). Whatever is done through a transaction keeps the
tables so that it has of its own or has read (`Txn.Orderly`). The one exception is an open of the
main database that gives it another order of keys when it has some already; hence all is stated with
and without the main table.
-/

namespace MappedStore.Engine

variable {whole : Prop} {engine : Engine} {slots : SlotTable} {slot limit handle : Nat}
  {key name : Bytes} {table : Table} {record : Record} {txn after : Txn} {content : TxnSlot}
  {payload : Payload}

/-! ## Tables -/

namespace Table

/-- A table whose keys stand once each and in order, each with one value unless keys may have
several. -/
structure Orderly (table : Table) : Prop where
  sorted : table.entries.Sorted (.ofKeys table.flags)
  single : table.hasDuplicates = false → ∀ entry ∈ table.entries, entry.2.size = 1

/-- In a table without duplicates nothing else is asked for. -/
theorem Orderly.plain (h : table.Orderly) (hunique : table.hasDuplicates = false) : table.Plain :=
  ⟨hunique, h.sorted, h.single hunique⟩

/-- A table without entries. -/
theorem orderly_of_isEmpty (h : table.isEmpty = true) : table.Orderly := by
  have hentries : table.entries = [] := List.isEmpty_iff.mp h
  exact ⟨by simp [hentries, Entries.Sorted], by simp [hentries]⟩

/-- A record is put in its place. -/
theorem Orderly.insert (h : table.Orderly) (key : Bytes)
    (hrecord : table.hasDuplicates = false → record.size = 1) :
    (table.insert key record).Orderly where
  sorted := h.sorted.insert key record
  single hunique entry hentry := by
    rcases Entries.mem_insert hentry with rfl | hentry
    · exact hrecord hunique
    · exact h.single hunique entry hentry

/-- A record is taken away. -/
theorem Orderly.erase (h : table.Orderly) (key : Bytes) : (table.erase key).Orderly where
  sorted := h.sorted.erase key
  single hunique entry hentry := h.single hunique entry (List.mem_of_mem_filter hentry)

/-- Flags are added that leave the order of the keys. -/
theorem Orderly.addFlags (h : table.Orderly) {flags : DbFlags}
    (hkept : table.isEmpty = true ∨ Order.ofKeys (table.flags.union flags) = .ofKeys table.flags) :
    Orderly { table with flags := table.flags.union flags } := by
  rcases hkept with hempty | hkept
  · exact orderly_of_isEmpty hempty
  · refine ⟨hkept ▸ h.sorted, fun hunique ↦ h.single ?_⟩
    -- a table keeps its duplicates when flags are added
    by_contra hduplicates
    have hcontains := Flags.contains_iff.mp (Bool.not_eq_false _ ▸ hduplicates)
    have hadded : (table.flags.union flags).contains DbFlags.dupSort = true :=
      Flags.contains_iff.mpr fun index hindex ↦ by
        rw [Flags.hasBit_union, hcontains index hindex, Bool.true_or]
    exact absurd (hunique.symm.trans hadded) (by decide)

end Table

/-- An entry that is found is one of those listed. -/
theorem Entries.mem_of_find? {α : Type} {entries : Entries α} {value : α}
    (h : entries.find? key = some value) : (key, value) ∈ entries := by
  induction entries with
  | nil => simp [find?] at h
  | cons entry rest ih =>
      simp only [find?] at h
      split at h
      · rename_i hkey
        obtain rfl := Option.some.inj h
        exact hkey ▸ List.mem_cons_self
      · exact List.mem_cons_of_mem _ (ih h)

/-! ## Snapshots -/

/-- A snapshot whose named tables are in order, and, if that is asked for, the main table with
them. -/
structure Snapshot.Orderly (whole : Prop) (snapshot : Snapshot) : Prop where
  main : whole → snapshot.main.Orderly
  named : ∀ entry ∈ snapshot.named, entry.2.Orderly

/-- The table of a name is in order. A name without a table has an empty one. -/
theorem Snapshot.orderly_table {snapshot : Snapshot}
    (h : ∀ entry ∈ snapshot.named, entry.2.Orderly) (name : Bytes) :
    (snapshot.table name).Orderly := by
  unfold Snapshot.table
  cases hfind : snapshot.named.find? name with
  | none => exact Table.orderly_of_isEmpty rfl
  | some table => exact h _ (Entries.mem_of_find? hfind)

/-- A snapshot of nothing. -/
theorem Snapshot.orderly_empty : Snapshot.Orderly whole {} :=
  ⟨fun _ ↦ Table.orderly_of_isEmpty rfl, by simp⟩

/-! ## Transactions -/

/-- Whether the table that a transaction holds of a slot counts: one that it has read or changed.
The main table counts if that is asked for. -/
def TxnSlot.Counts (whole : Prop) (slot : Nat) (content : TxnSlot) : Prop :=
  if slot = mainSlot then whole
  else content.usable = true ∧ content.stale = false ∨ content.dirty = true

/-- The main table counts if that is asked for. -/
theorem TxnSlot.counts_main : content.Counts whole mainSlot ↔ whole := by
  rw [Counts, if_pos rfl]

/-- A named table counts if it was read or changed. -/
theorem TxnSlot.counts_named (hslot : slot ≠ mainSlot) : content.Counts whole slot ↔
    content.usable = true ∧ content.stale = false ∨ content.dirty = true := by
  rw [Counts, if_neg hslot]

namespace Txn

/-- A transaction whose tables are in order, as far as they count. -/
structure Orderly (whole : Prop) (txn : Txn) : Prop where
  held : ∀ slot content, txn.slot? slot = some content → content.Counts whole slot →
    content.table.Orderly
  tables : ∀ entry ∈ txn.tables, entry.2.Orderly

/-- Changing a slot leaves the recorded tables. -/
theorem tables_setSlot (txn : Txn) (slot : Nat) (content : TxnSlot) :
    (txn.setSlot slot content).tables = txn.tables := by
  unfold setSlot
  split <;> rfl

namespace Orderly

/-- Page accounting and the marks on a transaction are no concern of its tables. -/
theorem of_eq (h : txn.Orderly whole) (hmain : after.main = txn.main)
    (hnamed : after.named = txn.named) (htables : after.tables = txn.tables) :
    after.Orderly whole where
  held slot content hcontent hcounts := by
    refine h.held slot content ?_ hcounts
    rcases slot with _ | _ | index
    · exact hcontent
    · exact (congrArg some hmain).symm.trans hcontent
    · exact (congrArg (·[index]?) hnamed).symm.trans hcontent
  tables := htables ▸ h.tables

/-- What a transaction holds of a slot is replaced. -/
theorem setSlot (h : txn.Orderly whole) {content' : TxnSlot}
    (hcontent : txn.slot? slot = some content)
    (horderly : content'.Counts whole slot → content'.table.Orderly) :
    (txn.setSlot slot content').Orderly whole where
  held other kept hkept hcounts := by
    rw [slot?_setSlot hcontent] at hkept
    split at hkept
    · rename_i hother
      obtain rfl := Option.some.inj hkept
      exact horderly (hother ▸ hcounts)
    · exact h.held other kept hkept hcounts
  tables := (tables_setSlot txn slot content').symm ▸ h.tables

/-- What a transaction holds of a slot is changed, if it holds anything. -/
theorem modifySlot (h : txn.Orderly whole) {change : TxnSlot → TxnSlot}
    (horderly : ∀ content, txn.slot? slot = some content → (change content).Counts whole slot →
      (change content).table.Orderly) : (txn.modifySlot slot change).Orderly whole := by
  unfold Txn.modifySlot
  cases hcontent : txn.slot? slot with
  | none => exact h
  | some content => exact h.setSlot hcontent (horderly content hcontent)

/-- The table behind a slot is changed in a way that keeps tables in order. -/
theorem modifyTable (h : txn.Orderly whole) {change : Table → Table}
    (horderly : ∀ content, txn.slot? slot = some content → content.table.Orderly →
      (change content.table).Orderly) : (txn.modifyTable slot change).Orderly whole :=
  h.modifySlot fun content hcontent hcounts ↦
    horderly content hcontent (h.held slot content hcontent hcounts)

/-- A record is put in its place behind a slot. -/
theorem insertTable (h : txn.Orderly whole) (key : Bytes)
    (hrecord : ∀ content, txn.slot? slot = some content → content.table.hasDuplicates = false →
      record.size = 1) : (txn.modifyTable slot (·.insert key record)).Orderly whole :=
  h.modifyTable fun content hcontent horderly ↦ horderly.insert key (hrecord content hcontent)

/-- A table that could be read is in order. -/
theorem load (h : txn.Orderly whole) {loaded : TxnSlot} (husable : txn.usable? slot = some content)
    (hload : txn.load slots slot content = .ok loaded) (hcounts : loaded.Counts whole slot) :
    loaded.table.Orderly := by
  obtain ⟨hcontent, -, -⟩ := slot?_of_usable? husable
  cases hstale : content.stale with
  | false =>
      rw [(load_follows hload).2.2 hstale] at hcounts ⊢
      exact h.held slot content hcontent hcounts
  | true =>
      unfold Txn.load at hload
      simp only [hstale, Bool.not_true, Bool.false_eq_true, if_false] at hload
      split at hload
      · cases hload
      split at hload
      · cases hload
      · cases hload
      · split at hload
        · cases hload
        · rw [← Except.ok.inj hload]
          exact Snapshot.orderly_table h.tables _

/-- A table is read. -/
theorem loaded (h : txn.Orderly whole) {loaded : TxnSlot}
    (husable : txn.usable? slot = some content) (hload : txn.load slots slot content = .ok loaded) :
    (txn.setSlot slot loaded).Orderly whole :=
  h.setSlot (slot?_of_usable? husable).1 (h.load husable hload)

/-- A table is read if that is possible. -/
theorem tryLoad (h : txn.Orderly whole) (husable : txn.usable? slot = some content) :
    (txn.tryLoad slots slot content).Orderly whole := by
  unfold Txn.tryLoad
  split
  · exact h.loaded husable ‹_›
  · exact h

/-- A table that a transaction sees is in order: it counts, for it has been read or can be. -/
theorem of_sees (h : txn.Orderly whole) (hsees : txn.Sees slots slot table)
    (hwhole : slot = mainSlot → whole) : table.Orderly := by
  obtain ⟨content, loaded, husable, hload, rfl⟩ := hsees
  refine h.load husable hload ?_
  by_cases hslot : slot = mainSlot
  · subst hslot
    exact TxnSlot.counts_main.mpr (hwhole rfl)
  · obtain ⟨hfollows, hread, -⟩ := load_follows hload
    have husable' := hfollows.usable.trans (slot?_of_usable? husable).2.1
    exact (TxnSlot.counts_named hslot).mpr (.inl ⟨husable', hread⟩)

end Orderly

/-! ### Claims -/

/-- Pages are claimed, or not. -/
theorem Orderly.claim (h : txn.Orderly whole) (limit pages : Nat) :
    (txn.claim limit pages).2.Orderly whole := by
  unfold Txn.claim
  split
  · exact h
  · split <;> exact h.of_eq rfl rfl rfl

/-- A page is claimed for a tree, or not. -/
theorem Orderly.touchTree (h : txn.Orderly whole) (limit slot : Nat) :
    (txn.touchTree limit slot).2.Orderly whole := by
  have hclaim := h.claim limit 1
  unfold Txn.touchTree
  split
  · exact h
  · split
    · exact h.of_eq rfl rfl rfl
    · split <;> rename_i claimed hc <;> rw [hc] at hclaim
      · exact hclaim
      · have hmark : (claimed.modifySlot slot ({ · with touched := true })).Orderly whole :=
          hclaim.modifySlot fun content hcontent ↦ hclaim.held slot content hcontent
        exact hmark.of_eq rfl rfl rfl

/-- A slot is prepared for a change, or not. The table of a named one is at hand. -/
theorem Orderly.touch (h : txn.Orderly whole) (limit : Nat) (slots : SlotTable) {slot : Nat}
    (hshows : slot ≠ mainSlot → ∃ table, txn.Shows slot table) :
    (txn.touch limit slots slot).2.Orderly whole := by
  have hmain := h.touchTree limit mainSlot
  unfold Txn.touch
  split
  · exact h
  · split
    · exact h.touchTree limit slot
    · rename_i hnamed
      split
      · exact h
      · split <;> rename_i touched hc <;> rw [hc] at hmain
        · exact hmain
        · have hslot : slot ≠ mainSlot := by
            rintro rfl
            simp at hnamed
          obtain ⟨table, hshows⟩ := hshows hslot
          obtain ⟨-, content, hcontent, husable, hstale, -⟩ :=
            (touchTree_ok hc).1.shows slot table hshows
          have hdirty : (touched.modifySlot slot ({ · with dirty := true })).Orderly whole := by
            refine hmain.modifySlot fun kept hkept _ ↦ hmain.held slot kept hkept ?_
            obtain rfl := Option.some.inj (hcontent.symm.trans hkept)
            exact (TxnSlot.counts_named hslot).mpr (.inl ⟨husable, hstale⟩)
          exact hdirty.touchTree limit slot

/-- Pages are claimed for an entry, or not. -/
theorem Orderly.claimEntry (h : txn.Orderly whole) (limit : Nat) (key : Bytes) (size : Nat) :
    (txn.claimEntry limit key size).2.Orderly whole := by
  unfold Txn.claimEntry
  split
  · have hclaim := h.claim limit (overflowRun size)
    split <;> rename_i hc <;> rw [hc] at hclaim <;> exact hclaim
  · dsimp only
    generalize (txn.written + 8 + key.length + size) / (pageSize / 2) - _ = pages
    have hclaim := h.claim limit pages
    split <;> rename_i hc <;> rw [hc] at hclaim
    · exact hclaim
    · exact hclaim.of_eq rfl rfl rfl

/-- An empty table is given its first page, or not. -/
theorem Orderly.newRoot (h : txn.Orderly whole) (limit : Nat) {slot : Nat}
    (hempty : ∀ content, txn.slot? slot = some content → content.table.isEmpty = true) :
    (txn.newRoot limit slot).2.Orderly whole := by
  have hclaim := h.claim limit 1
  have hslot : ∀ place, (txn.claim limit 1).2.slot? place = txn.slot? place := by
    intro place
    unfold Txn.claim
    split
    · rfl
    · split <;> rcases place with _ | _ | index <;> rfl
  unfold Txn.newRoot
  split <;> rename_i claimed hc <;> rw [hc] at hclaim hslot
  · exact hclaim
  · have hmark :
        (claimed.modifySlot slot ({ · with dirty := true, touched := true })).Orderly whole :=
      hclaim.modifySlot fun content hcontent _ ↦
        Table.orderly_of_isEmpty (hempty content ((hslot slot).symm.trans hcontent))
    exact hmark.of_eq rfl rfl rfl

/-! ### Stored values -/

/-- One value counts once. -/
theorem size_values (item : Bytes) (run : Run) : Record.size (.values [item] run) = 1 := rfl

/-- A key gets its first value, or not. -/
theorem Orderly.insertNew (h : txn.Orderly whole) (limit slot : Nat) (key : Bytes)
    (payload : Payload) : (txn.insertNew limit slot key payload).2.Orderly whole := by
  have hclaim := h.claimEntry limit key payload.size
  unfold Txn.insertNew
  split <;> rename_i hc <;> rw [hc] at hclaim
  · exact hclaim
  · exact hclaim.insertTable key fun _ _ _ ↦ size_values _ _

/-- The value of a key is replaced, or not. -/
theorem Orderly.overwrite (h : txn.Orderly whole) (limit slot : Nat) (key : Bytes)
    (payload : Payload) (items : List Bytes) (run : Run) :
    (txn.overwrite limit slot key payload items run).2.Orderly whole := by
  unfold Txn.overwrite
  extract_lets inPlace
  split
  · exact h.insertTable key fun _ _ _ ↦ size_values _ _
  · exact h.insertNew limit slot key payload

/-- An empty table is given its first entry, or not. -/
theorem Orderly.insertFirst (h : txn.Orderly whole) (limit : Nat) {slot : Nat} (key : Bytes)
    (payload : Payload)
    (hempty : ∀ content, txn.slot? slot = some content → content.table.isEmpty = true) :
    (txn.insertFirst limit slot key payload).2.Orderly whole := by
  have hroot := h.newRoot limit hempty
  unfold Txn.insertFirst
  split <;> rename_i hc <;> rw [hc] at hroot
  · exact hroot
  · exact hroot.insertNew limit slot key payload

/-- A value is stored under a key of a table at hand, or not. -/
theorem Orderly.store (h : txn.Orderly whole) (limit : Nat) (key : Bytes) (payload : Payload)
    (flags : WriteFlags) (found : Option Record) (hshows : txn.Shows slot table) :
    (txn.store limit slot table key payload flags found).2.Orderly whole := by
  have hclaim := h.claimEntry limit key payload.size
  unfold Txn.store
  split
  · exact h.insertNew limit slot key payload
  · exact h
  · split
    · rename_i hduplicates
      split
      · exact h
      · split
        · exact h
        · split <;> rename_i hc <;> rw [hc] at hclaim
          · exact hclaim
          · obtain ⟨-, content, hcontent, -, -, rfl⟩ := (claimEntry_ok hc).shows slot table hshows
            refine hclaim.insertTable key fun kept hkept hunique ↦ ?_
            obtain rfl := Option.some.inj (hcontent.symm.trans hkept)
            rw [hduplicates] at hunique
            cases hunique
    · exact h.overwrite limit slot key payload _ _

/-- A value is stored through a slot, or not. -/
theorem Orderly.put (h : txn.Orderly whole) (limit : Nat) (slots : SlotTable) (blocked : Bool)
    (slot : Nat) (key : Bytes) (payload : Payload) (flags : WriteFlags) :
    (txn.put limit slots blocked slot key payload flags).2.Orderly whole := by
  have houtcome := txn.put_outcome limit slots blocked slot key payload flags
  generalize txn.put limit slots blocked slot key payload flags = answer at houtcome ⊢
  cases houtcome with
  | unusable | misflagged | reader | blocked | unread => exact h
  | missized hwritable => exact h.tryLoad hwritable.usable
  | seeded hwritable _ _ hempty _ hfirst =>
      subst hfirst
      refine h.insertFirst limit key payload fun kept hkept ↦ ?_
      obtain rfl := Option.some.inj ((slot?_of_usable? hwritable.usable).1.symm.trans hkept)
      exact hempty
  | @first content loaded answer hwritable _ hload hempty hfirst =>
      subst hfirst
      refine (h.loaded hwritable.usable hload).insertFirst limit key payload fun kept hkept ↦ ?_
      rw [slot?_setSlot (slot?_of_usable? hwritable.usable).1, if_pos rfl] at hkept
      obtain rfl := Option.some.inj hkept
      exact hempty
  | unmet hwritable _ hload => exact h.loaded hwritable.usable hload
  | @untouched content loaded found code touched hwritable _ hload _ htouched =>
      have htouch := (h.loaded hwritable.usable hload).touch limit slots
        fun _ ↦ ⟨_, shows_load hwritable.usable hload⟩
      rwa [htouched] at htouch
  | @stored content loaded found touched answer hwritable _ hload _ htouched hstored =>
      subst hstored
      have hshows := shows_load hwritable.usable hload
      have htouch := (h.loaded hwritable.usable hload).touch limit slots fun _ ↦ ⟨_, hshows⟩
      rw [htouched] at htouch
      exact htouch.store limit key payload flags found
        ((touch_ok htouched hshows.slot?_ne).1.shows slot _ hshows)

/-- A reserved buffer is filled. -/
theorem Orderly.fill (h : txn.Orderly whole) (slot : Nat) (key data : Bytes) :
    (txn.fill slot key data).Orderly whole := by
  refine h.modifyTable fun content _ horderly ↦ ?_
  split
  · rename_i item rest run hfind
    split
    · refine horderly.insert key fun hunique ↦ ?_
      have hsize := horderly.single hunique _ (Entries.mem_of_find? hfind)
      exact hsize
    · exact horderly
  · exact horderly

/-! ### Reads and removals -/

/-- What a read leaves. -/
theorem Orderly.peeked (h : txn.Orderly whole) (hpeeked : txn.Peeked slots after) :
    after.Orderly whole := by
  cases hpeeked with
  | same => exact h
  | loaded husable hload => exact h.loaded husable hload

/-- A value is read, or not. -/
theorem Orderly.get (h : txn.Orderly whole) (slots : SlotTable) (blocked : Bool) (slot : Nat)
    (key : Bytes) : (txn.get slots blocked slot key).2.Orderly whole :=
  h.peeked (txn.peeked_get slots blocked slot key)

/-- Figures are asked for. -/
theorem Orderly.stat (h : txn.Orderly whole) (slots : SlotTable) (blocked : Bool) (slot : Nat) :
    (txn.stat slots blocked slot).2.Orderly whole :=
  h.peeked (txn.peeked_stat slots blocked slot)

/-- Values are removed through a slot, or not. -/
theorem Orderly.del (h : txn.Orderly whole) (limit : Nat) (slots : SlotTable) (blocked : Bool)
    (slot : Nat) (key : Bytes) (item : Option Bytes) :
    (txn.del limit slots blocked slot key item).2.Orderly whole := by
  have houtcome := txn.del_outcome limit slots blocked slot key item
  generalize txn.del limit slots blocked slot key item = answer at houtcome ⊢
  have htouch {content loaded : TxnSlot} (hwritable : txn.Writable blocked slot content)
      (hload : txn.load slots slot content = .ok loaded) :
      ((txn.setSlot slot loaded).touch limit slots slot).2.Orderly whole :=
    (h.loaded hwritable.usable hload).touch limit slots
      fun _ ↦ ⟨_, shows_load hwritable.usable hload⟩
  cases houtcome with
  | unusable | reader | blocked | unread => exact h
  | nameless hwritable => exact h.tryLoad hwritable.usable
  | missed hwritable _ hload | unlisted hwritable _ hload => exact h.loaded hwritable.usable hload
  | untouched hwritable _ hload htouched =>
      have hprepared := htouch hwritable hload
      rwa [htouched] at hprepared
  | database hwritable _ hload _ htouched =>
      have hprepared := htouch hwritable hload
      rw [htouched] at hprepared
      exact hprepared.of_eq rfl rfl rfl
  | @removed content loaded items run touched hwritable _ hload _ _ htouched =>
      have hprepared := htouch hwritable hload
      rw [htouched] at hprepared
      have hshows := shows_load hwritable.usable hload
      obtain ⟨-, kept, hkept, -, -, htable⟩ :=
        (touch_ok htouched hshows.slot?_ne).1.shows slot _ hshows
      dsimp only at hprepared ⊢
      refine hprepared.modifyTable fun other hother horderly ↦ ?_
      split
      · exact horderly.erase key
      · -- values are left only where keys may have several
        rename_i hleft
        refine horderly.insert key fun hunique ↦ absurd ?_ hleft
        obtain rfl := Option.some.inj (hkept.symm.trans hother)
        rw [← htable, Table.asked, if_neg (by rw [hunique]; decide)]
        rfl

end Txn

end MappedStore.Engine
