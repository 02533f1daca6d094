import MappedStore.Proofs.Engine.Writing

/-!
# Transactions that hold maps

What a write transaction holds of a set of databases is a map behind each of their slots
(`Txn.Keeps`). Reads leave the maps alone, a write changes the one behind its slot, and a nested
transaction starts from the maps of its parent and hands its own to it. The invariant also says
what the commit of the root will need: the main table records the databases, no two slots compete
for a name, and a transaction that has not changed anything sees the committed snapshot.
-/

namespace MappedStore.Engine

/-- The map behind each slot. -/
abbrev Contents := Nat → Bytes → Option Bytes

/-- What stays fixed while the transactions of a chain of writers are used: the table of slots, the
committed snapshot, the slots in use, and the slots that the root has opened. -/
structure Setting where
  slots : SlotTable
  snapshot : Snapshot
  used : Nat → Prop
  made : Nat → Prop

/-- No two named slots in use have the same occupant. -/
def Setting.Separate (setting : Setting) : Prop :=
  ∀ slot other, setting.used slot → setting.used other → slot ≠ mainSlot → other ≠ mainSlot →
    (setting.slots.info slot).name = (setting.slots.info other).name → slot = other

variable {slots : SlotTable} {setting : Setting} {slot other : Nat}
  {txn before after : Txn} {content loaded : TxnSlot} {table : Table} {map : Bytes → Option Bytes}
  {contents : Contents}

namespace Txn

/-- What a transaction holds of the named slots that were not used. -/
theorem Uses.slot?_of_ne (h : Uses slots slot before after) (hother : other ≠ slot)
    (hmain : other ≠ mainSlot) : after.slot? other = before.slot? other := by
  rcases other with _ | _ | index
  · rfl
  · exact absurd rfl hmain
  · exact h.other index hother

/-- What a transaction holds of the slot that was used. -/
theorem Uses.slot?_self (h : Uses slots slot before after) (hmain : slot ≠ mainSlot)
    (hcontent : before.slot? slot = some content) : ∃ content', after.slot? slot = some content' ∧
      TxnSlot.Follows (before.recorded slots slot) content content' := by
  rcases slot with _ | _ | index
  · simp [slot?] at hcontent
  · exact absurd rfl hmain
  · exact h.here index rfl content hcontent

/-- A use of one slot changes nothing that a transaction sees through another, if the main table
records the occupant still. -/
theorem Sees.of_uses (h : before.Sees slots other table) (huses : Uses slots slot before after)
    (hother : other ≠ slot) (hmain : before.main.stale = false)
    (hrecords : other ≠ mainSlot → ∀ name, before.main.table.find? name = some .database →
      after.main.table.find? name = some .database) : after.Sees slots other table := by
  obtain ⟨content, loaded, husable, hload, htable⟩ := h
  obtain ⟨hcontent, hready, hidle⟩ := slot?_of_usable? husable
  have hidle' : after.idle = false := huses.kin.idle.trans hidle
  by_cases hnamed : other = mainSlot
  · subst hnamed
    obtain rfl : before.main = content := Option.some.inj hcontent
    obtain rfl := (load_follows hload).2.2 hmain
    have hstale := (huses.main hmain).1
    refine ⟨after.main, after.main, ?_, load_read hstale, ?_⟩
    · simp [usable?, hidle', slot?, mainSlot, huses.mainUsable, hready]
    · rw [huses.mainTable (Ne.symm hother)]
      exact htable
  · have hslot := (huses.slot?_of_ne hother hnamed).trans hcontent
    refine ⟨content, loaded, by simp [usable?, hidle', hslot, hready], ?_, htable⟩
    cases hstale : content.stale with
    | false =>
        rw [load_read hstale] at hload ⊢
        exact hload
    | true =>
        -- the table is read from the snapshot, where it is what it was
        have hoccupied : before.isOutdated slots other content = false := by
          by_contra houtdated
          simp [load, hstale, Bool.not_eq_false _ ▸ houtdated] at hload
        have hoccupied' : after.isOutdated slots other content = false := by
          simpa [isOutdated, huses.kin.readOnly] using hoccupied
        rw [load_stale hstale hoccupied] at hload
        rw [load_stale hstale hoccupied', ← hload]
        congr 1
        unfold Snapshot.lookup at hload ⊢
        have htables : after.snapshot.table (slots.info other).name
            = before.snapshot.table (slots.info other).name := by
          simp [Snapshot.table, snapshot, huses.tables]
        cases hfound : before.snapshot.main.find? (slots.info other).name with
        | none => simp [hfound, Except.map] at hload
        | some record =>
            cases record with
            | values items run => simp [hfound, Except.map] at hload
            | database =>
                have hfound' : after.snapshot.main.find? (slots.info other).name
                    = some .database := hrecords hnamed _ hfound
                rw [hfound', htables]

/-- A transaction sees one table through a slot. -/
theorem Sees.unique (h : txn.Sees slots slot table) {table' : Table}
    (h' : txn.Sees slots slot table') : table = table' := by
  obtain ⟨content, loaded, husable, hload, rfl⟩ := h
  obtain ⟨loaded', hload', rfl⟩ := h'.usable husable
  rw [Except.ok.inj (hload.symm.trans hload')]

/-- A slot through which a transaction sees a table is one that it holds. -/
theorem slot?_of_sees (h : txn.Sees slots slot table) : txn.slot? slot ≠ none := by
  obtain ⟨content, -, husable, -⟩ := h
  simp [(slot?_of_usable? husable).1]

/-! ## The invariant -/

/-- A write transaction has a map behind a slot in use. -/
structure Backs (setting : Setting) (slot : Nat) (map : Bytes → Option Bytes) (txn : Txn) :
    Prop where
  seen : ∃ table, txn.Sees setting.slots slot table ∧ table.Plain ∧ table.value = map ∧
    (slot ≠ mainSlot → setting.made slot ∨ (setting.slots.info slot).known = true ∧
      (setting.slots.info slot).flags = table.flags)
  recorded : slot ≠ mainSlot →
    txn.main.table.find? (setting.slots.info slot).name = some .database
  standing : slot ≠ mainSlot → ∀ content, txn.slot? slot = some content →
    content.sequence = (setting.slots.info slot).sequence

/-- What a write transaction keeps of a set of databases: a map behind each slot in use. -/
structure Keeps (setting : Setting) (contents : Contents) (txn : Txn) : Prop where
  writer : txn.readOnly = false
  broken : txn.broken = false
  mainStale : txn.main.stale = false
  backs : ∀ slot, setting.used slot → txn.Backs setting slot (contents slot)
  dirty : ∀ slot content, slot ≠ mainSlot → txn.slot? slot = some content →
    content.dirty = true → content.stale = false ∧ (setting.used slot ∨ setting.made slot) ∧
    txn.main.table.find? (setting.slots.info slot).name = some .database ∧
      ∀ other, setting.used other → other ≠ mainSlot →
        (setting.slots.info other).name = (setting.slots.info slot).name → other = slot
  unchanged : txn.changed = false → txn.snapshot = setting.snapshot ∧
    ∀ slot content, slot ≠ mainSlot → txn.slot? slot = some content → content.dirty = false

namespace Keeps

/-- What a transaction sees of a database in use. -/
theorem sees (h : txn.Keeps setting contents) (hused : setting.used slot) :
    ∃ table, txn.Sees setting.slots slot table ∧ table.Plain ∧ table.value = contents slot := by
  obtain ⟨table, hsees, hplain, hvalue, -⟩ := (h.backs slot hused).seen
  exact ⟨table, hsees, hplain, hvalue⟩

/-! ## Reads -/

/-- A table that was read is in its place under the same marks, and has the flags that were
known. -/
theorem load_marks (h : txn.load slots slot content = .ok loaded) :
    loaded.sequence = content.sequence ∧ loaded.dirty = content.dirty ∧
      loaded.table.flags = content.table.flags := by
  unfold load at h
  split at h
  · obtain rfl := Except.ok.inj h
    exact ⟨rfl, rfl, rfl⟩
  split at h
  · simp at h
  split at h
  · simp at h
  · simp at h
  dsimp only at h
  split at h
  · simp at h
  · rename_i hflags
    obtain rfl := Except.ok.inj h
    exact ⟨rfl, rfl, by simpa using hflags⟩

/-- What a transaction holds of a slot after a read it held before, under the same marks. -/
theorem peeked_marks (h : Peeked slots txn after) (hcontent : after.slot? slot = some content) :
    ∃ before, txn.slot? slot = some before ∧ content.sequence = before.sequence ∧
      content.dirty = before.dirty ∧ (before.stale = false → content.stale = false) := by
  cases h with
  | same => exact ⟨content, hcontent, rfl, rfl, id⟩
  | loaded husable hload =>
      rw [slot?_setSlot (slot?_of_usable? husable).1] at hcontent
      split at hcontent
      · rename_i hsame
        obtain rfl := Option.some.inj hcontent
        obtain ⟨hsequence, hmark, -⟩ := load_marks hload
        exact ⟨_, hsame ▸ (slot?_of_usable? husable).1, hsequence, hmark,
          fun _ ↦ (load_usable hload).2⟩
      · exact ⟨content, hcontent, rfl, rfl, id⟩

/-- A read does not count as a change. -/
theorem changed_of_peeked (h : Peeked slots txn after) : after.changed = txn.changed := by
  cases h with
  | same => rfl
  | loaded =>
      unfold setSlot
      split <;> rfl

/-- A read leaves the maps alone. -/
theorem peeked (h : txn.Keeps setting contents) (hpeeked : Peeked setting.slots txn after) :
    after.Keeps setting contents := by
  have hread := hpeeked.hasRead h.mainStale
  refine ⟨hread.kin.readOnly.trans h.writer, hread.broken.trans h.broken,
    (congrArg _ hread.main).trans h.mainStale, fun slot hused ↦ ?_, ?_, fun hchanged ↦ ?_⟩
  · obtain ⟨⟨table, hsees, hrest⟩, hrecorded, hstanding⟩ := h.backs slot hused
    refine ⟨⟨table, hsees.peeked hpeeked h.mainStale, hrest⟩, by rwa [hread.main], ?_⟩
    intro hnamed content hcontent
    obtain ⟨before, hbefore, hsequence, -⟩ := peeked_marks hpeeked hcontent
    exact hsequence.trans (hstanding hnamed before hbefore)
  · intro slot content hnamed hcontent hdirty
    obtain ⟨before, hbefore, -, hmark, hstale⟩ := peeked_marks hpeeked hcontent
    rw [hread.main]
    exact (h.dirty slot before hnamed hbefore (hmark.symm.trans hdirty)).imp_left hstale
  · obtain ⟨hsnapshot, hclean⟩ := h.unchanged ((changed_of_peeked hpeeked).symm.trans hchanged)
    refine ⟨hread.snapshot.trans hsnapshot, fun slot content hnamed hcontent ↦ ?_⟩
    obtain ⟨before, hbefore, -, hmark, -⟩ := peeked_marks hpeeked hcontent
    exact hmark.trans (hclean slot before hnamed hbefore)

/-! ## Writes -/

/-- A write changes the map behind its slot and leaves the others alone. -/
theorem wrote (h : txn.Keeps setting contents) (hseparate : setting.Separate)
    (hused : setting.used slot) (huses : Uses setting.slots slot txn after) {written : Table}
    (hwrote : Wrote slot written txn after) (hchanged : after.changed = true)
    (hsees : txn.Sees setting.slots slot table) (hplain : written.Plain)
    (hflags : written.flags = table.flags)
    (hrecords : ∀ other ≠ mainSlot, setting.used other ∨ setting.made other →
      ∀ name, txn.main.table.find? name = some .database →
        after.main.table.find? name = some .database) :
    after.Keeps setting (Function.update contents slot written.value) := by
  refine ⟨huses.kin.readOnly.trans h.writer, hwrote.broken.trans h.broken,
    (huses.main h.mainStale).1, fun other hother ↦ ?_, ?_, fun hclean ↦ ?_⟩
  · obtain ⟨⟨seen, hseen, hrest⟩, hrecorded, hstanding⟩ := h.backs other hother
    by_cases hsame : other = slot
    · subst hsame
      obtain ⟨hold, hmark⟩ := hrest.2
      rw [Function.update_self]
      refine ⟨⟨written, hwrote.shows.sees _, hplain, rfl, fun hnamed ↦ ?_⟩,
        fun hnamed ↦ hrecords other hnamed (.inl hother) _ (hrecorded hnamed),
        fun hnamed content hcontent ↦ ?_⟩
      · rw [hflags, hsees.unique hseen]
        exact hmark hnamed
      · obtain ⟨before, hbefore⟩ := Option.ne_none_iff_exists'.mp (slot?_of_sees hsees)
        obtain ⟨content', hcontent', hfollows⟩ := huses.slot?_self hnamed hbefore
        obtain rfl := Option.some.inj (hcontent.symm.trans hcontent')
        exact hfollows.sequence.trans (hstanding hnamed before hbefore)
    · rw [Function.update_of_ne hsame]
      refine ⟨⟨seen, hseen.of_uses huses hsame h.mainStale fun hnamed ↦
        hrecords other hnamed (.inl hother), hrest⟩,
        fun hnamed ↦ hrecords other hnamed (.inl hother) _ (hrecorded hnamed),
        fun hnamed content hcontent ↦ hstanding hnamed content ?_⟩
      rwa [huses.slot?_of_ne hsame hnamed] at hcontent
  · intro other content hnamed hcontent hdirty
    by_cases hsame : other = slot
    · subst hsame
      obtain ⟨-, shown, hshown, -, hread, -⟩ := hwrote.shows
      obtain rfl := Option.some.inj (hcontent.symm.trans hshown)
      exact ⟨hread, .inl hused,
        hrecords other hnamed (.inl hused) _ ((h.backs other hused).recorded hnamed),
        fun third hthird hthirdNamed hname ↦
          hseparate third other hthird hused hthirdNamed hnamed hname⟩
    · rw [huses.slot?_of_ne hsame hnamed] at hcontent
      obtain ⟨hread, hplace, hrecorded, hunique⟩ := h.dirty other content hnamed hcontent hdirty
      exact ⟨hread, hplace, hrecords other hnamed hplace _ hrecorded, hunique⟩
  · simp [hchanged] at hclean

/-- The table at hand behind the main slot is the main table. -/
theorem main_of_shows (h : txn.Shows mainSlot table) : txn.main.table = table := by
  obtain ⟨-, content, hcontent, -, -, htable⟩ := h
  obtain rfl : txn.main = content := Option.some.inj hcontent
  exact htable

/-- The main table is seen as it is, once it has been read. -/
theorem main_of_sees (h : txn.Sees slots mainSlot table) (hmain : txn.main.stale = false) :
    txn.main.table = table := by
  obtain ⟨content, loaded, husable, hload, rfl⟩ := h
  obtain rfl : txn.main = content := Option.some.inj (slot?_of_usable? husable).1
  rw [load_read hmain] at hload
  exact congrArg TxnSlot.table (Except.ok.inj hload)

/-- A write keeps the records of named databases if it keeps them in the table of the main slot,
when that is the one written. -/
theorem records_of_wrote (h : txn.Keeps setting contents) (huses : Uses setting.slots slot txn after)
    {written : Table} (hwrote : Wrote slot written txn after)
    (hsees : txn.Sees setting.slots slot table)
    (hrecords : slot = mainSlot → ∀ name, table.find? name = some .database →
      written.find? name = some .database) {name : Bytes}
    (hname : txn.main.table.find? name = some .database) :
    after.main.table.find? name = some .database := by
  by_cases hslot : slot = mainSlot
  · subst hslot
    rw [main_of_shows hwrote.shows]
    exact hrecords rfl name (main_of_sees hsees h.mainStale ▸ hname)
  · rwa [huses.mainTable hslot]

/-- A stored value is the value of its key from then on. -/
theorem put (h : txn.Keeps setting contents) (hseparate : setting.Separate)
    (hused : setting.used slot) {limit : Nat} {blocked : Bool} {key : Bytes} {payload : Payload}
    (hput : txn.put limit setting.slots blocked slot key payload .empty = (.ok (), after)) :
    blocked = false ∧ after.Keeps setting (Function.update contents slot
      (Function.update (contents slot) key (some payload.content))) := by
  obtain ⟨table, hsees, hplain, hvalue⟩ := h.sees hused
  obtain ⟨hblocked, hkey, hchanged, run, hwrote⟩ := put_ok hput hsees hplain.unique
  have huses : Uses setting.slots slot txn after := by
    simpa [hput] using (txn.uses_put limit setting.slots blocked slot key payload .empty).1
  refine ⟨hblocked, ?_⟩
  rw [← hvalue, show some payload.content
    = some (Record.read (.values [payload.content] run)) from rfl, ← Table.value_insert]
  refine h.wrote hseparate hused huses hwrote hchanged hsees (hplain.insert key rfl) rfl
    fun _ _ _ name ↦ h.records_of_wrote huses hwrote hsees fun _ name hname ↦ ?_
  have hne : name ≠ key := by
    rintro rfl
    exact hkey hname
  exact (Entries.find?_insert_of_ne _ _ _ hne).trans hname

/-- A removed key has no value from then on. It had one before. -/
theorem del (h : txn.Keeps setting contents) (hseparate : setting.Separate)
    (hused : setting.used slot) {limit : Nat} {blocked : Bool} {key : Bytes}
    (hdel : txn.del limit setting.slots blocked slot key none = (.ok (), after)) :
    blocked = false ∧ contents slot key ≠ none ∧ after.Keeps setting
      (Function.update contents slot (Function.update (contents slot) key none)) := by
  obtain ⟨table, hsees, hplain, hvalue⟩ := h.sees hused
  obtain ⟨hblocked, ⟨items, run, hkey⟩, hchanged, hwrote⟩ := del_ok hdel hsees
  have huses : Uses setting.slots slot txn after := by
    simpa [hdel] using txn.uses_del limit setting.slots blocked slot key none
  refine ⟨hblocked, ?_, ?_⟩
  · rw [← hvalue, Table.value_ne_none, hkey]
    simp
  · rw [← hvalue, ← Table.value_erase]
    refine h.wrote hseparate hused huses hwrote hchanged hsees (hplain.erase key) rfl
      fun _ _ _ name ↦ h.records_of_wrote huses hwrote hsees fun _ name hname ↦ ?_
    have hne : name ≠ key := by
      rintro rfl
      simp [hkey] at hname
    exact (Entries.find?_erase_of_ne _ hne).trans hname

/-- A removal that finds nothing changes nothing. The key had no value. -/
theorem del_absent (h : txn.Keeps setting contents) (hused : setting.used slot) {limit : Nat}
    {blocked : Bool} {key : Bytes}
    (hdel : txn.del limit setting.slots blocked slot key none
      = (.error Condition.notFound.code, after)) :
    blocked = false ∧ contents slot key = none ∧ after.Keeps setting contents := by
  obtain ⟨table, hsees, -, hvalue⟩ := h.sees hused
  obtain ⟨hblocked, hkey, hpeeked⟩ := Txn.del_absent hdel hsees
  exact ⟨hblocked, by simp [← hvalue, Table.value, hkey], h.peeked hpeeked⟩

/-- An emptied database has no values. The main database can only be emptied if no named one is in
use. -/
theorem cleared (h : txn.Keeps setting contents) (hseparate : setting.Separate)
    (hused : setting.used slot) (huses : Uses setting.slots slot txn after)
    (hsees : txn.Sees setting.slots slot table) (hwrote : Wrote slot table.clear txn after)
    (hchanged : after.changed = true)
    (hmain : slot = mainSlot → ∀ other ≠ mainSlot, ¬ (setting.used other ∨ setting.made other)) :
    after.Keeps setting (Function.update contents slot fun _ ↦ none) := by
  obtain ⟨table', hsees', hplain, -⟩ := h.sees hused
  obtain rfl := hsees.unique hsees'
  exact h.wrote hseparate hused huses hwrote hchanged hsees hplain.clear rfl
    fun other hnamed hplace name ↦ h.records_of_wrote huses hwrote hsees fun hslot ↦
      absurd hplace (hmain hslot other hnamed)

/-! ## Nesting -/

/-- Two transactions that differ at most in their handles, in which slots count as opened in them,
and in that the second may count as changed. -/
structure Twin (before after : Txn) : Prop where
  readOnly : after.readOnly = before.readOnly
  idle : after.idle = before.idle
  broken : after.broken = before.broken
  main : after.main = before.main
  tables : after.tables = before.tables
  named : after.named.map ({ · with fresh := false }) = before.named.map ({ · with fresh := false })
  changed : before.changed = true → after.changed = true

/-- Slots that are the same but for whether they count as opened. -/
theorem fresh_of_map {first second : Option TxnSlot}
    (h : second.map ({ · with fresh := false }) = first.map ({ · with fresh := false }))
    (hcontent : first = some content) :
    ∃ fresh, second = some { content with fresh := fresh } := by
  subst hcontent
  obtain ⟨kept, rfl, hsame⟩ := Option.map_eq_some_iff.mp h
  refine ⟨kept.fresh, ?_⟩
  rcases kept with ⟨⟩
  rcases content with ⟨⟩
  simp_all

/-- What a transaction and its twin hold of a slot is the same but for that. -/
theorem Twin.slot? (h : Twin before after) (slot : Nat) :
    (after.slot? slot).map ({ · with fresh := false })
      = (before.slot? slot).map ({ · with fresh := false }) := by
  rcases slot with _ | _ | index
  · rfl
  · exact congrArg (Option.map _ ∘ some) h.main
  · simpa [Txn.slot?] using congrArg (·[index]?) h.named

/-- What a twin holds of a slot, the transaction holds but for that. -/
theorem Twin.back (h : Twin before after) (hcontent : after.slot? slot = some content) :
    ∃ fresh, before.slot? slot = some { content with fresh := fresh } :=
  fresh_of_map (h.slot? slot).symm hcontent

/-- A table is read no matter whether its slot counts as opened. -/
theorem load_fresh (txn : Txn) (slots : SlotTable) (slot : Nat) (content : TxnSlot)
    (fresh : Bool) : txn.load slots slot { content with fresh := fresh }
      = (txn.load slots slot content).map ({ · with fresh := fresh }) := by
  have houtdated : txn.isOutdated slots slot { content with fresh := fresh }
      = txn.isOutdated slots slot content := rfl
  unfold load
  rw [houtdated]
  cases hstale : content.stale with
  | false => simp [Except.map, hstale]
  | true =>
      cases txn.isOutdated slots slot content with
      | true => simp [Except.map]
      | false =>
          rcases txn.main.table.find? (slots.info slot).name with _ | _ | _
          · rfl
          · rfl
          · by_cases hflags : (txn.snapshot.table (slots.info slot).name).flags = content.table.flags
            · simp [hflags, Except.map]
            · simp [hflags, Except.map]

/-- A twin sees the same tables. -/
theorem Twin.sees (h : Twin before after) (hsees : before.Sees slots slot table) :
    after.Sees slots slot table := by
  obtain ⟨content, loaded, husable, hload, htable⟩ := hsees
  obtain ⟨hcontent, hready, hidle⟩ := slot?_of_usable? husable
  obtain ⟨fresh, hafter⟩ := fresh_of_map (h.slot? slot) hcontent
  refine ⟨{ content with fresh := fresh }, { loaded with fresh := fresh }, ?_, ?_, htable⟩
  · simp [usable?, h.idle.trans hidle, hafter, hready]
  · have hsame : after.load slots slot content = before.load slots slot content := by
      unfold load isOutdated snapshot
      rw [h.readOnly, h.main, h.tables]
    rw [load_fresh, hsame, hload]
    rfl

/-- A twin keeps the same maps. -/
theorem twin (h : txn.Keeps setting contents) (htwin : Twin txn after) :
    after.Keeps setting contents := by
  refine ⟨htwin.readOnly.trans h.writer, htwin.broken.trans h.broken,
    (congrArg _ htwin.main).trans h.mainStale, fun slot hused ↦ ?_, ?_, fun hchanged ↦ ?_⟩
  · obtain ⟨⟨table, hsees, hrest⟩, hrecorded, hstanding⟩ := h.backs slot hused
    refine ⟨⟨table, htwin.sees hsees, hrest⟩, by rwa [htwin.main], fun hnamed content hcontent ↦ ?_⟩
    obtain ⟨fresh, hkept⟩ := htwin.back hcontent
    exact hstanding hnamed { content with fresh := fresh } hkept
  · intro slot content hnamed hcontent hdirty
    obtain ⟨fresh, hkept⟩ := htwin.back hcontent
    rw [htwin.main]
    exact h.dirty slot { content with fresh := fresh } hnamed hkept hdirty
  · have hbefore : txn.changed = false := by
      by_contra hcontra
      simp [htwin.changed (Bool.not_eq_false _ ▸ hcontra)] at hchanged
    obtain ⟨hsnapshot, hclean⟩ := h.unchanged hbefore
    refine ⟨?_, fun slot content hnamed hcontent ↦ ?_⟩
    · rw [← hsnapshot]
      simp [snapshot, htwin.main, htwin.tables]
    · obtain ⟨fresh, hkept⟩ := htwin.back hcontent
      exact hclean slot { content with fresh := fresh } hnamed hkept

end Keeps

end Txn

end MappedStore.Engine
