import MappedStore.Proofs.Coherence
import MappedStore.Proofs.Engine.Levels

/-!
# What the commit of a root publishes

When a root commits, the tables that it has changed are recorded under the names of their slots, and
what it sees becomes the committed snapshot. From then on every transaction that begins finds the
maps of the root behind the same slots (`Published`).
-/

namespace MappedStore.Engine

variable {setting : Setting} {engine result : Engine} {slots : SlotTable} {slot limit : Nat}
  {txn after : Txn} {content : TxnSlot} {table : Table} {todo : List Nat} {contents : Contents}
  {map : Bytes → Option Bytes}

/-! ## Recording -/

/-- A recording skips a slot that is not dirty, and puts the table of a dirty one under the name of
its occupant. -/
theorem record_cons (h : record slots limit txn (slot :: todo) = (.ok (), after)) :
    (∀ content, txn.slot? slot = some content → content.dirty = false) ∧
        record slots limit txn todo = (.ok (), after) ∨
      ∃ content base, txn.slot? slot = some content ∧ content.dirty = true ∧
        Txn.Uses slots 0 txn base ∧
        record slots limit
          { base with
            main := { base.main with
              table := base.main.table.insert (slots.info slot).name .database }
            tables := base.tables.insert .bytewise (slots.info slot).name content.table }
          todo = (.ok (), after) := by
  unfold record at h
  split at h
  · rename_i hnone
    exact .inl ⟨fun content hcontent ↦ by simp [hnone] at hcontent, h⟩
  rename_i content hcontent
  split at h
  · rename_i hclean
    refine .inl ⟨fun other hother ↦ ?_, h⟩
    obtain rfl := Option.some.inj (hcontent.symm.trans hother)
    simpa using hclean
  rename_i hdirty
  split at h
  · simp [refuse] at h
  dsimp only at h
  split at h
  · simp [refuse] at h
  have htouch := (Txn.uses_prepareMain slots 0 txn limit slots).1
  split at h <;> rename_i touched hc <;> simp only [hc] at htouch
  · simp at h
  · exact .inr ⟨content, touched, hcontent, by simpa using hdirty, htouch, h⟩

/-- A recording step leaves what a transaction holds of the named slots. -/
theorem slot?_recording {base : Txn} (huses : Txn.Uses slots 0 txn base) (hslot : slot ≠ mainSlot)
    (main : TxnSlot) (tables : Entries Table) :
    ({ base with main := main, tables := tables } : Txn).slot? slot = txn.slot? slot := by
  rcases slot with _ | _ | index
  · rfl
  · exact absurd rfl hslot
  · exact congrArg (·[index]?) huses.named_eq

/-- Recording tables under names that have records changes no record of the main table. -/
theorem record_main (h : record slots limit txn todo = (.ok (), after))
    (htodo : ∀ slot ∈ todo, slot ≠ mainSlot)
    (hrecorded : ∀ slot ∈ todo, ∀ content, txn.slot? slot = some content → content.dirty = true →
      txn.main.table.find? (slots.info slot).name = some .database) (key : Bytes) :
    after.main.table.find? key = txn.main.table.find? key := by
  induction todo generalizing txn with
  | nil => rw [← (Prod.mk.inj h).2]
  | cons slot rest ih =>
      have hrest : ∀ other ∈ rest, other ≠ mainSlot := fun other hother ↦
        htodo other (List.mem_cons_of_mem _ hother)
      rcases record_cons h with ⟨-, hnext⟩ | ⟨content, base, hcontent, hdirty, huses, hnext⟩
      · exact ih hnext hrest fun other hother ↦ hrecorded other (List.mem_cons_of_mem _ hother)
      · have hmain : base.main.table = txn.main.table := huses.mainTable (by simp [mainSlot])
        have hname := hrecorded slot List.mem_cons_self content hcontent hdirty
        -- a record that is there already is replaced by itself
        have hsame : ∀ other, (base.main.table.insert (slots.info slot).name .database).find? other
            = txn.main.table.find? other := by
          intro other
          rw [hmain]
          by_cases hother : other = (slots.info slot).name
          · subst hother
            exact (Entries.find?_insert_self _ _ _ _).trans hname.symm
          · exact Entries.find?_insert_of_ne _ _ _ hother
        refine (ih hnext hrest fun other hother content hcontent hdirty ↦ ?_).trans (hsame key)
        rw [slot?_recording huses (hrest other hother)] at hcontent
        exact (hsame _).trans
          (hrecorded other (List.mem_cons_of_mem _ hother) content hcontent hdirty)

/-- The table of a dirty slot is recorded if no other dirty slot has the same occupant. -/
theorem record_dirty (h : record slots limit txn todo = (.ok (), after))
    (hwriter : txn.readOnly = false) (htodo : ∀ slot ∈ todo, slot ≠ mainSlot) (hslot : slot ∈ todo)
    (hcontent : txn.slot? slot = some content) (hdirty : content.dirty = true)
    (hunique : ∀ other ∈ todo, ∀ content, txn.slot? other = some content → content.dirty = true →
      (slots.info other).name = (slots.info slot).name → other = slot) :
    after.snapshot.table (slots.info slot).name = content.table := by
  induction todo generalizing txn with
  | nil => simp at hslot
  | cons head rest ih =>
      have hrest : ∀ other ∈ rest, other ≠ mainSlot := fun other hother ↦
        htodo other (List.mem_cons_of_mem _ hother)
      have hothers : ∀ other ∈ rest, ∀ content, txn.slot? other = some content →
          content.dirty = true → (slots.info other).name = (slots.info slot).name →
          other = slot := fun other hother ↦ hunique other (List.mem_cons_of_mem _ hother)
      rcases record_cons h with ⟨hclean, hnext⟩ | ⟨found, base, hfound, -, huses, hnext⟩
      · rcases List.mem_cons.mp hslot with rfl | hslot
        · simp [hclean content hcontent] at hdirty
        · exact ih hnext hwriter hrest hslot hcontent hothers
      · have hbase : (base.readOnly = false) := huses.kin.readOnly.trans hwriter
        by_cases hagain : slot ∈ rest
        · exact ih hnext hbase hrest hagain
            ((slot?_recording huses (hrest slot hagain) _ _).trans hcontent)
            fun other hother content hheld ↦ hothers other hother content
              ((slot?_recording huses (hrest other hother) _ _).symm.trans hheld)
        · -- nothing that is recorded later goes under the same name
          obtain rfl : slot = head := (List.mem_cons.mp hslot).resolve_right hagain
          obtain rfl : content = found := Option.some.inj (hcontent.symm.trans hfound)
          rcases record_table (by exact hbase) hrest hnext (slots.info slot).name with
            hsame | ⟨other, hother, hname, kept, hkept, hdirty', -⟩
          · rw [hsame]
            simp [Txn.snapshot, Snapshot.table, Entries.find?_insert_self]
          · rw [slot?_recording huses (hrest other hother)] at hkept
            exact absurd (hothers other hother kept hkept hdirty' hname ▸ hother) hagain

/-! ## Published databases -/

/-- The committed snapshot has a map behind a slot, and every transaction that begins will know the
slot. -/
structure Published (slot : Nat) (map : Bytes → Option Bytes) (engine : Engine) : Prop where
  main : slot = mainSlot → engine.image.snapshot.main.value = map
  named : slot ≠ mainSlot → (engine.slots.info slot).known = true ∧
    slot < engine.known + firstSlot ∧ ∃ table, engine.image.snapshot.lookup
      (engine.slots.info slot).name (engine.slots.info slot).flags = .ok table ∧ table.value = map

/-- What a transaction sees through a slot has the flags that it holds for the slot. -/
theorem Txn.Sees.flags (h : txn.Sees slots slot table) (hcontent : txn.slot? slot = some content) :
    table.flags = content.table.flags := by
  obtain ⟨content', loaded, husable, hload, rfl⟩ := h
  obtain rfl := Option.some.inj (hcontent.symm.trans (Txn.slot?_of_usable? husable).1)
  exact (Txn.Keeps.load_marks hload).2.2

/-- What a transaction sees through a slot that it has not changed is what its snapshot has under
the name of the occupant. -/
theorem Txn.Sees.recorded (h : txn.Sees slots slot table) (hcoherent : txn.Coherent slots)
    (hslot : slot ≠ mainSlot) (hcontent : txn.slot? slot = some content)
    (hclean : content.dirty = false) (hsequence : content.sequence = (slots.info slot).sequence)
    (hrecorded : txn.main.table.find? (slots.info slot).name = some .database) :
    table = txn.snapshot.table (slots.info slot).name := by
  obtain ⟨content', loaded, husable, hload, rfl⟩ := h
  obtain ⟨hheld, hready, -⟩ := Txn.slot?_of_usable? husable
  obtain rfl := Option.some.inj (hcontent.symm.trans hheld)
  have hknown : txn.recorded slots slot = some (txn.snapshot.table (slots.info slot).name) := by
    simp [Txn.recorded, hrecorded]
  cases hstale : content.stale with
  | false =>
      obtain rfl := Except.ok.inj ((Txn.load_read hstale).symm.trans hload)
      rcases slot with _ | _ | index
      · simp [Txn.slot?] at hcontent
      · exact absurd rfl hslot
      · exact hcoherent.read index content hcontent hready hstale hclean hsequence _ hknown
  | true =>
      obtain ⟨hfollows, hread, -⟩ := Txn.load_follows hload
      rcases hfollows.clean ((Txn.Keeps.load_marks hload).2.1.trans hclean) with
        ⟨hsame, -⟩ | ⟨-, -, htable⟩
      · simp [hstale, hread] at hsame
      · exact (Option.some.inj (hknown.symm.trans htable)).symm

/-! ## Commits -/

/-- After the recording of all its dirty slots a writer has the tables that it sees in its
snapshot. -/
theorem Txn.Keeps.recorded (h : txn.Keeps setting contents) (hcoherent : txn.Coherent setting.slots)
    (hrecord : record setting.slots limit txn
      ((List.range txn.named.length).map (· + firstSlot)) = (.ok (), after))
    (hused : setting.used slot) (hslot : slot ≠ mainSlot) (hsees : txn.Sees setting.slots slot table) :
    after.snapshot.table (setting.slots.info slot).name = table := by
  obtain ⟨content, hcontent⟩ := Option.ne_none_iff_exists'.mp (Txn.slot?_of_sees hsees)
  obtain ⟨-, hrecorded, hstanding⟩ := h.backs slot hused
  -- no other dirty slot has the name of this one
  have hunique : ∀ other ≠ mainSlot, ∀ content, txn.slot? other = some content →
      content.dirty = true → (setting.slots.info other).name = (setting.slots.info slot).name →
      other = slot := fun other hother content hheld hdirty hname ↦
    ((h.dirty other content hother hheld hdirty).2.2.2 slot hused hslot hname.symm).symm
  have htodo : ∀ other ∈ (List.range txn.named.length).map (· + firstSlot), other ≠ mainSlot :=
    fun other ↦ mem_range_slots
  cases hdirty : content.dirty with
  | true =>
      have hmem : slot ∈ (List.range txn.named.length).map (· + firstSlot) := by
        rcases slot with _ | _ | index
        · simp [Txn.slot?] at hcontent
        · exact absurd rfl hslot
        · have hlt := (List.getElem?_eq_some_iff.mp hcontent).1
          exact List.mem_map.mpr ⟨index, List.mem_range.mpr hlt, rfl⟩
      rw [record_dirty hrecord h.writer htodo hmem hcontent hdirty fun other hother ↦
        hunique other (htodo other hother)]
      obtain ⟨kept, loaded, husable, hload, rfl⟩ := hsees
      obtain rfl := Option.some.inj (hcontent.symm.trans (Txn.slot?_of_usable? husable).1)
      have hread := (h.dirty slot content hslot hcontent hdirty).1
      rw [← Except.ok.inj ((Txn.load_read hread).symm.trans hload)]
  | false =>
      have htable := hsees.recorded hcoherent hslot hcontent hdirty (hstanding hslot content hcontent)
        (hrecorded hslot)
      rcases record_table h.writer htodo hrecord (setting.slots.info slot).name with
        hsame | ⟨other, hother, hname, kept, hkept, hdirty', -⟩
      · exact hsame.trans htable.symm
      · obtain rfl := hunique other (htodo other hother) kept hkept hdirty' hname
        obtain rfl := Option.some.inj (hcontent.symm.trans hkept)
        simp [hdirty] at hdirty'

/-- What becomes of an engine when its root commits: the slots that the root has opened are known,
and the committed snapshot has the main table of the root, and the tables that it sees. -/
theorem Levels.commit_root (h : Levels setting engine [contents]) (hroster : Roster engine)
    (hcoherent : Coherent engine) (hwriters : engine.writers = [txn])
    (hcommit : engine.commit txn.handle = (.ok (), result)) :
    result.slots = setting.slots.keep txn.named ∧
      result.known = max engine.known txn.named.length ∧
      (∀ key, result.image.snapshot.main.find? key = txn.main.table.find? key) ∧
      ∀ slot table, setting.used slot → slot ≠ mainSlot → txn.Sees setting.slots slot table →
        result.image.snapshot.table (setting.slots.info slot).name = table := by
  obtain ⟨writer, outer, hwriters', hkeeps, -⟩ := h.innermost
  obtain ⟨rfl, rfl⟩ := List.cons.inj (hwriters'.symm.trans hwriters)
  obtain ⟨htxn, hwriter⟩ := hroster.txn?_innermost hwriters
  have hown : writer.Coherent setting.slots :=
    h.slots ▸ hcoherent writer (List.mem_append_left _ (by simp [hwriters]))
  unfold commit at hcommit
  simp only [htxn, hwriter, Bool.false_eq_true, if_false, hwriters, if_true, commitWriter,
    hkeeps.broken] at hcommit
  split at hcommit
  · rename_i hunchanged
    obtain rfl := (Prod.mk.inj hcommit).2
    obtain ⟨hsnapshot, hclean⟩ := hkeeps.unchanged (by simpa using hunchanged)
    -- A root that has changed nothing publishes nothing, and sees what the image had all along.
    have himage : engine.image.snapshot = writer.snapshot := h.snapshot.trans hsnapshot.symm
    refine ⟨congrArg (SlotTable.keep · _) h.slots, rfl, fun key ↦ ?_,
      fun slot table hused hslot hsees ↦ ?_⟩
    · exact congrArg (fun snapshot : Snapshot ↦ snapshot.main.find? key) himage
    · obtain ⟨content, hcontent⟩ := Option.ne_none_iff_exists'.mp (Txn.slot?_of_sees hsees)
      obtain ⟨-, hrecorded, hstanding⟩ := hkeeps.backs slot hused
      have htable := hsees.recorded hown hslot hcontent (hclean slot content hslot hcontent)
        (hstanding hslot content hcontent) (hrecorded hslot)
      rw [htable, ← himage]
      rfl
  · split at hcommit
    · simp at hcommit
    · rename_i last hflush
      obtain rfl := (Prod.mk.inj hcommit).2
      have hnamed : last.named = writer.named := by
        simpa [hflush] using (engine.flush_named writer).named
      obtain ⟨recorded, hrecord, hsnapshot⟩ := flush_ok hflush
      rw [h.slots] at hrecord
      refine ⟨?_, ?_, fun key ↦ ?_, fun slot table hused hslot hsees ↦ ?_⟩
      · show engine.slots.keep last.named = _
        rw [h.slots, hnamed]
      · show max engine.known last.named.length = _
        rw [hnamed]
      · show last.snapshot.main.find? key = _
        rw [hsnapshot]
        exact record_main hrecord (fun other ↦ mem_range_slots)
          (fun other hother content hcontent hdirty ↦
            (hkeeps.dirty other content (mem_range_slots hother) hcontent hdirty).2.2.1) key
      · show last.snapshot.table _ = _
        rw [hsnapshot]
        exact hkeeps.recorded hown hrecord hused hslot hsees

/-- What is known about a slot after the slots that a transaction has opened were made known. -/
theorem SlotTable.info_keep (slots : SlotTable) {named : List TxnSlot} {index : Nat}
    (hcontent : named[index]? = some content) (hlt : index < slots.length) :
    (slots.keep named).info (index + 2) =
      if content.fresh then
        { slots.info (index + 2) with flags := content.table.flags, known := true }
      else slots.info (index + 2) := by
  show (slots.keep named).getD index {} = _
  unfold SlotTable.keep
  rw [SlotTable.getD_mapIdx, if_pos hlt, List.getD_eq_getElem?_getD, hcontent]
  rfl

/-- The commit of the root publishes what it holds. -/
theorem Levels.published (h : Levels setting engine [contents]) (hroster : Roster engine)
    (hcoherent : Coherent engine)
    (hoccupied : ∀ slot, setting.made slot → (setting.slots.info slot).name ≠ [])
    (hwriters : engine.writers = [txn]) (hcommit : engine.commit txn.handle = (.ok (), result))
    (hused : setting.used slot) : Published slot (contents slot) result := by
  obtain ⟨hslots, hknown, hmain, htables⟩ := h.commit_root hroster hcoherent hwriters hcommit
  obtain ⟨writer, outer, hwriters', hkeeps, -⟩ := h.innermost
  obtain ⟨rfl, rfl⟩ := List.cons.inj (hwriters'.symm.trans hwriters)
  have hmarked : writer.OpensMade setting := by
    have hmarked := h.marked
    rwa [hwriters] at hmarked
  obtain ⟨⟨table, hsees, -, hvalue, hflags⟩, hrecorded, -⟩ := hkeeps.backs slot hused
  constructor
  · rintro rfl
    rw [← hvalue, ← Txn.Keeps.main_of_sees hsees hkeeps.mainStale]
    funext key
    exact congrArg (Option.map Record.read) (hmain key)
  · intro hslot
    obtain ⟨content, hcontent⟩ := Option.ne_none_iff_exists'.mp (Txn.slot?_of_sees hsees)
    have hsame := hsees.flags hcontent
    rcases slot with _ | _ | index
    · simp [Txn.slot?] at hcontent
    · exact absurd rfl hslot
    have hlt : index < setting.slots.length := by
      by_contra hout
      have hdefault : setting.slots.info (index + 2) = {} := by
        show setting.slots.getD index {} = {}
        simp [List.getD_eq_getElem?_getD, List.getElem?_eq_none (Nat.le_of_not_lt hout)]
      rcases hflags hslot with hmade | ⟨hfound, -⟩
      · exact hoccupied _ hmade (by rw [hdefault])
      · simp [hdefault] at hfound
    have hinfo := SlotTable.info_keep setting.slots hcontent hlt
    -- an opened slot gets the flags of its table, and any other was known with them before
    have hfound : (result.slots.info (index + 2)).name = (setting.slots.info (index + 2)).name ∧
        (result.slots.info (index + 2)).known = true ∧
        (result.slots.info (index + 2)).flags = table.flags := by
      rw [hslots, hinfo]
      cases hfresh : content.fresh with
      | true => exact ⟨rfl, rfl, hsame.symm⟩
      | false =>
          rcases hflags hslot with hmade | hold
          · simp [hmarked _ content hslot hused hmade hcontent] at hfresh
          · exact ⟨rfl, hold⟩
    refine ⟨hfound.2.1, ?_, table, ?_, hvalue⟩
    · have hindex := (List.getElem?_eq_some_iff.mp hcontent).1
      rw [hknown]
      simp only [firstSlot]
      omega
    · have htable := htables (index + 2) table hused hslot hsees
      simp only [Snapshot.lookup, hfound.1, hfound.2.2, hmain, hrecorded hslot, htable]
      simp

end MappedStore.Engine
