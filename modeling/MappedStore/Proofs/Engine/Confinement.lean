import MappedStore.Proofs.Engine.Turns

/-!
# Databases that a use leaves alone

A use of a slot works on the database of the name that occupies the slot. `UsedThrough.confined`
says that it leaves the databases of other names alone, in the transaction that it goes through, in
the others and in the image. A changed table reaches the image at the commit of a root, and only
under the name that occupies its slot at that time (`commit_image`).
-/

namespace MappedStore.Engine

variable {slots : SlotTable} {slot : Nat} {txn before after : Txn} {name : Bytes}

/-- What is left of a transaction without the named database behind a slot. -/
theorem Txn.without_eq (txn : Txn) (name : Bytes) (hslot : slot ≠ mainSlot) :
    (txn.without slot name).main = { txn.main with table := txn.main.table.erase name } ∧
      (txn.without slot name).tables = txn.tables.erase name ∧
      (∀ index, index + firstSlot ≠ slot →
        (txn.without slot name).named[index]? = txn.named[index]?) ∧
      ∀ (index : Nat) (content : TxnSlot), (txn.without slot name).named[index]? = some content →
        txn.named[index]? = some content ∨ ∃ source : TxnSlot, txn.named[index]? = some source ∧
          content.sequence = source.sequence ∧ content.usable = false := by
  unfold Txn.without Txn.modifySlot
  cases hfound : txn.slot? slot with
  | none => exact ⟨rfl, rfl, fun _ _ ↦ rfl, fun _ _ hcontent ↦ .inl hcontent⟩
  | some source =>
      match slot with
      | 0 => exact ⟨rfl, rfl, fun _ _ ↦ rfl, fun _ _ hcontent ↦ .inl hcontent⟩
      | 1 => exact absurd rfl hslot
      | position + 2 =>
          refine ⟨rfl, rfl, fun index hne ↦ ?_, fun index content hcontent ↦ ?_⟩
          · exact List.getElem?_set_ne fun heq ↦ hne (congrArg (· + firstSlot) heq.symm)
          · simp only [Txn.setSlot, List.getElem?_set] at hcontent
            split at hcontent
            · rename_i heq
              subst heq
              split at hcontent
              · obtain rfl := Option.some.inj hcontent
                exact .inr ⟨source, hfound, rfl, rfl⟩
              · simp at hcontent
            · exact .inl hcontent

/-! ## Uses -/

/-- A transaction after a use of one slot, behind which it has the database of a name. -/
structure Txn.Apart (slot : Nat) (name : Bytes) (before after : Txn) : Prop where
  kin : Txn.Kin before after
  named : ∀ index, index + firstSlot ≠ slot → after.named[index]? = before.named[index]?
  records : slot ≠ mainSlot → ∀ other ≠ name,
    after.main.table.find? other = before.main.table.find? other
  tables : ∀ other ≠ name, after.snapshot.table other = before.snapshot.table other

/-- Without a named database the others are as they were. -/
theorem Txn.apart_without (txn : Txn) (name : Bytes) (hslot : slot ≠ mainSlot) :
    Txn.Apart slot name txn (txn.without slot name) := by
  obtain ⟨hmain, htables, hnamed, -⟩ := txn.without_eq name hslot
  refine ⟨txn.kin_without slot name, hnamed, fun _ other hother ↦ ?_, fun other hother ↦ ?_⟩
  · rw [hmain]
    exact Entries.find?_erase_of_ne _ hother
  · show (Entries.find? other (txn.without slot name).tables).getD {} = _
    rw [htables, Entries.find?_erase_of_ne _ hother]
    rfl

/-- A use of a slot leaves the databases of all names alone, but for changes that the transaction
has yet to record. -/
theorem Txn.Uses.apart (h : Txn.Uses slots slot before after) (name : Bytes) :
    Txn.Apart slot name before after where
  kin := h.kin
  named := h.other
  records hslot other _ := by rw [h.mainTable hslot]
  tables other _ := by simp [Txn.snapshot, Snapshot.table, h.tables]

/-- What is left alone twice is left alone. -/
theorem Txn.Apart.trans {last : Txn} (h : Txn.Apart slot name before after)
    (h' : Txn.Apart slot name after last) : Txn.Apart slot name before last where
  kin := h.kin.trans h'.kin
  named index hne := (h'.named index hne).trans (h.named index hne)
  records hslot other hother := (h'.records hslot other hother).trans (h.records hslot other hother)
  tables other hother := (h'.tables other hother).trans (h.tables other hother)

/-- An engine after a use of one slot of the transaction with a handle, when a name occupies the
slot. -/
structure Confined (handle slot : Nat) (name : Bytes) (before after : Engine) : Prop where
  image : after.image = before.image
  occupants : ∀ other ≠ slot, after.slots.info other = before.slots.info other
  others : ∀ other ≠ handle, after.txn? other = before.txn? other
  own : ∀ txn, before.txn? handle = some txn →
    ∃ txn', after.txn? handle = some txn' ∧ Txn.Apart slot name txn txn'

variable {engine last : Engine} {handle : Nat}

/-- Replacing a transaction leaves the others. -/
theorem txn?_replace_of_ne {other : Nat} (hother : other ≠ txn.handle) :
    (engine.replace txn).txn? other = engine.txn? other := by
  rw [txn?_replace]
  cases hfound : engine.txn? other with
  | none => rfl
  | some found =>
      have hne : found.handle ≠ txn.handle := handle_of_txn? hfound ▸ hother
      simp [hne]

/-- A replaced transaction is found under its handle. -/
theorem txn?_replace_self {txn' : Txn} (htxn : engine.txn? handle = some txn)
    (hhandle : txn'.handle = txn.handle) : (engine.replace txn').txn? handle = some txn' := by
  rw [txn?_replace, htxn]
  simp [hhandle]

/-- Replacing a transaction by one that keeps apart from the rest confines the change. -/
theorem confined_replace {table : SlotTable} (htxn : engine.txn? handle = some before)
    (happart : Txn.Apart slot name before after)
    (hslots : ∀ other ≠ slot, table.info other = engine.slots.info other) :
    Confined handle slot name engine { engine.replace after with slots := table } := by
  have hhandle : after.handle = handle := happart.kin.handle.trans (handle_of_txn? htxn)
  refine ⟨rfl, hslots, fun other hother ↦ txn?_replace_of_ne (hhandle ▸ hother), ?_⟩
  intro found hfound
  obtain rfl : before = found := Option.some.inj (htxn.symm.trans hfound)
  exact ⟨after, txn?_replace_self htxn happart.kin.handle, happart⟩

/-- A use of a slot is confined to the database of the name that occupies the slot. -/
theorem UsedThrough.confined (h : UsedThrough engine handle slot last) :
    Confined handle slot (engine.slots.info slot).name engine last := by
  cases h with
  | same =>
      refine ⟨rfl, fun _ _ ↦ rfl, fun _ _ ↦ rfl, fun txn htxn ↦ ⟨txn, htxn, ?_⟩⟩
      have hself : Txn.Uses engine.slots slot txn txn := .refl txn
      exact hself.apart _
  | uses htxn huses => exact confined_replace htxn (huses.apart _) fun _ _ ↦ rfl
  | dropped htxn hslot hwriter huses =>
      exact confined_replace htxn ((huses.apart _).trans (Txn.apart_without _ _ hslot))
        fun other hother ↦ SlotTable.info_update_of_ne _ _ hother

/-! ## Commits -/

/-- A table that a transaction has changed behind a slot, to be recorded under the name that
occupies the slot. -/
structure Txn.Changed (slots : SlotTable) (slot : Nat) (name : Bytes) (txn : Txn) (table : Table) :
    Prop where
  occupant : (slots.info slot).name = name
  content : ∃ content, txn.slot? slot = some content ∧ content.dirty = true ∧
    content.sequence = (slots.info slot).sequence ∧ content.table = table

/-- Recording the dirty slots of a writer changes the table of a name only to one that the writer
has changed behind a slot occupied by the name. -/
theorem record_table {limit : Nat} {todo : List Nat} (hwriter : txn.readOnly = false)
    (htodo : ∀ slot ∈ todo, slot ≠ mainSlot) (h : record slots limit txn todo = (.ok (), after))
    (name : Bytes) : after.snapshot.table name = txn.snapshot.table name ∨
      ∃ slot ∈ todo, txn.Changed slots slot name (after.snapshot.table name) := by
  induction todo generalizing txn with
  | nil =>
      obtain rfl : txn = after := congrArg Prod.snd h
      exact .inl rfl
  | cons slot rest ih =>
      have hrest : ∀ other ∈ rest, other ≠ mainSlot := fun other hother ↦
        htodo other (List.mem_cons_of_mem _ hother)
      have hskip : record slots limit txn rest = (.ok (), after) →
          after.snapshot.table name = txn.snapshot.table name ∨
            ∃ other ∈ slot :: rest, txn.Changed slots other name (after.snapshot.table name) := by
        intro hnext
        rcases ih hwriter hrest hnext with hsame | ⟨other, hother, hchanged⟩
        · exact .inl hsame
        · exact .inr ⟨other, List.mem_cons_of_mem _ hother, hchanged⟩
      unfold record at h
      split at h
      · exact hskip h
      rename_i content hcontent
      split at h
      · exact hskip h
      rename_i hdirty
      split at h
      · simp [refuse] at h
      rename_i hoccupied
      dsimp only at h
      split at h
      · simp [refuse] at h
      have htouch := (Txn.uses_prepareMain slots 0 txn limit slots).1
      split at h <;> rename_i touched hc <;> simp only [hc] at htouch
      · simp at h
      have hsequence : content.sequence = (slots.info slot).sequence := by
        simpa [Txn.isOutdated, hwriter] using hoccupied
      have hdirty : content.dirty = true := by simpa using hdirty
      have hhere : (slots.info slot).name = name →
          txn.Changed slots slot name content.table := fun hname ↦
        ⟨hname, content, hcontent, hdirty, hsequence, rfl⟩
      -- the other slots are as they were, and so are the tables of other names
      rcases ih (by exact htouch.kin.readOnly.trans hwriter) hrest h with
        hsame | ⟨other, hother, hchanged⟩
      · by_cases hname : (slots.info slot).name = name
        · refine .inr ⟨slot, List.mem_cons_self, ?_⟩
          have htable : after.snapshot.table name = content.table := by
            rw [hsame, ← hname]
            simp [Txn.snapshot, Snapshot.store, Snapshot.table, Entries.find?_insert_self]
          rw [htable]
          exact hhere hname
        · refine .inl (hsame.trans ?_)
          simp [Txn.snapshot, Snapshot.store, Snapshot.table,
            Entries.find?_insert_of_ne _ _ _ (Ne.symm hname), htouch.tables]
      · refine .inr ⟨other, List.mem_cons_of_mem _ hother, hchanged.occupant, ?_⟩
        obtain ⟨found, hfound, hrest'⟩ := hchanged.content
        refine ⟨found, ?_, hrest'⟩
        rcases other with _ | _ | index
        · simp [Txn.slot?] at hfound
        · exact absurd rfl (hrest 1 hother)
        · exact (congrArg (·[index]?) htouch.named_eq).symm.trans hfound

/-- A commit goes through named slots only. -/
theorem mem_range_slots {count : Nat} (h : slot ∈ (List.range count).map (· + firstSlot)) :
    slot ≠ mainSlot := by
  obtain ⟨index, -, rfl⟩ := List.mem_map.mp h
  simp [firstSlot, mainSlot]

/-- A successful commit leaves the image, or it is that of a root, which publishes what it has once
the tables of its dirty slots are recorded. -/
theorem commit_published (h : Roster engine) (hcommit : engine.commit handle = (.ok (), last)) :
    last.image = engine.image ∨ ∃ txn recorded, engine.txn? handle = some txn ∧
      txn ∈ engine.writers ∧
      record engine.slots engine.pageLimit txn
        ((List.range txn.named.length).map (· + firstSlot)) = (.ok (), recorded) ∧
      last.image.snapshot = recorded.snapshot := by
  unfold commit at hcommit
  split at hcommit
  · simp [refuseSystem] at hcommit
  rename_i txn htxn
  split at hcommit
  · obtain rfl : _ = last := congrArg Prod.snd hcommit
    obtain ⟨-, -, -, himage, -⟩ := endReader_cases engine txn true
    exact .inl himage
  split at hcommit
  · simp [refuse] at hcommit
  rename_i innermost outer hwriters
  split at hcommit
  · rename_i hhandle
    have hmem : innermost ∈ engine.writers := by simp [hwriters]
    obtain rfl : innermost = txn :=
      h.eq_of_handle (List.mem_append_left _ hmem) htxn hhandle
    unfold commitWriter at hcommit
    split at hcommit
    · split at hcommit
      · simp [refuse] at hcommit
      · obtain rfl : _ = last := congrArg Prod.snd hcommit
        exact .inl rfl
    split at hcommit
    · simp [refuse] at hcommit
    split at hcommit
    · obtain rfl : _ = last := congrArg Prod.snd hcommit
      exact .inl rfl
    split at hcommit
    · simp at hcommit
    · -- Only here is an image published: that of a root that has changed something.
      rename_i flushed hflush
      obtain rfl : _ = last := congrArg Prod.snd hcommit
      obtain ⟨recorded, hrecord, hsnapshot⟩ := flush_ok hflush
      exact .inr ⟨innermost, recorded, htxn, hmem, hrecord, hsnapshot⟩
  · simp [refuse] at hcommit

/-- A successful commit gives a name another table in the image only if the transaction had that
table for it: in its snapshot, or changed behind a slot that the name occupies. -/
theorem commit_image (h : Roster engine) (hcommit : engine.commit handle = (.ok (), last))
    (name : Bytes) : last.image.snapshot.table name = engine.image.snapshot.table name ∨
      ∃ txn, engine.txn? handle = some txn ∧
        (last.image.snapshot.table name = txn.snapshot.table name ∨
          ∃ slot, txn.Changed engine.slots slot name (last.image.snapshot.table name)) := by
  rcases commit_published h hcommit with
    himage | ⟨txn, recorded, htxn, hmem, hrecord, hsnapshot⟩
  · exact .inl (congrArg (fun image : Image ↦ image.snapshot.table name) himage)
  · refine .inr ⟨txn, htxn, ?_⟩
    rw [hsnapshot]
    rcases record_table (h.writers _ hmem) (fun slot ↦ mem_range_slots) hrecord name with
      hsame | ⟨slot, -, hchanged⟩
    · exact .inl hsame
    · exact .inr ⟨slot, hchanged⟩

end MappedStore.Engine
