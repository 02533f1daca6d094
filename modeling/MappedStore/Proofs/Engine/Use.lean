import MappedStore.Engine.Catalog
import MappedStore.Proofs.Engine.Frame
import MappedStore.Proofs.Engine.Occupancy

/-!
# Uses of a transaction

What can be done through a transaction of the engine while it lives: reads, writes, opens and
drops. `Engine.Used` lists all that such a use can do to the engine, and `Engine.use_used` says that
the list is complete. A use touches the transaction that it goes through and, if it opens or drops
a database, the table of slots; everything else stays.
-/

namespace MappedStore

open Engine

namespace Engine

/-- A use of a transaction. A reservation comes with the bytes for its buffer. -/
inductive Use where
  | get (slot : Nat) (key : Bytes)
  | stat (slot : Nat)
  | put (slot : Nat) (key : Bytes) (payload : Payload) (flags : WriteFlags)
  | reserve (slot : Nat) (key data : Bytes) (flags : WriteFlags)
  | del (slot : Nat) (key : Bytes) (item : Option Bytes)
  | drop (slot : Nat) (delete : Bool)
  | openDatabase (name : Option Bytes) (flags : DbFlags)

/-- The slot through which a database is used; an open uses none. -/
def Use.slot? : Use → Option Nat
  | .get slot _ | .stat slot | .put slot _ _ _ | .reserve slot _ _ _ | .del slot _ _
  | .drop slot _ => some slot
  | .openDatabase _ _ => none

/-- The engine after a use of the transaction with a handle. -/
def use (engine : Engine) (handle : Nat) : Use → Engine
  | .get slot key => (engine.get handle slot key).2
  | .stat slot => (engine.statOf handle slot).2
  | .put slot key payload flags => (engine.put handle slot key payload flags).2
  | .reserve slot key data flags =>
      match engine.put handle slot key (.reserved data.length) flags with
      | (.ok (), engine) => engine.fill handle slot key data
      | (.error _, engine) => engine
  | .del slot key item => (engine.del handle slot key item).2
  | .drop slot delete => (engine.drop handle slot delete).2
  | .openDatabase name flags => (engine.openDatabase handle name flags).2

/-- A transaction whose main table may have got a record of a name, and nothing else new. -/
structure Records (name : Bytes) (before after : Txn) : Prop where
  kin : Txn.Kin before after
  named : after.named = before.named
  mainUsable : after.main.usable = before.main.usable
  mainSequence : after.main.sequence = before.main.sequence
  mainStale : before.main.stale = false → after.main.stale = false
  records : ∀ other ≠ name, after.main.table.find? other = before.main.table.find? other
  tables : ∀ other ≠ name, after.snapshot.table other = before.snapshot.table other

/-- A transaction that gives a position among its slots to a name. `base` is the transaction with
the record of the name, and `content` is what it holds of the slot from then on. -/
structure Occupies (slots : SlotTable) (index : Nat) (name : Bytes) (before base : Txn)
    (content : TxnSlot) : Prop where
  records : Records name before base
  index_le : index ≤ before.named.length
  name_ne : name ≠ []
  unseen : ∀ other < before.named.length, (slots.getD other {}).name ≠ name
  usable : content.usable = true
  stale : content.stale = false
  fresh : content.fresh = true
  sequence : content.sequence = (slots.getD index {}).sequence + 1
  clean : content.dirty = false → base = before ∧ content.table = before.snapshot.table name
  readOnly : before.readOnly = true → content.dirty = false

/-- The table of slots after a name has been given a position. -/
def occupied (slots : SlotTable) (index : Nat) (name : Bytes) : SlotTable :=
  slots.updateAt (fun info ↦ { info with name := name, sequence := info.sequence + 1 }) index

/-- A transaction without the named database behind a slot. -/
def Txn.without (txn : Txn) (slot : Nat) (name : Bytes) : Txn :=
  let txn := txn.modifySlot slot fun content ↦
    { content with usable := false, stale := true, fresh := false, dirty := false }
  { txn with
    main := { txn.main with table := txn.main.table.erase name }
    tables := txn.tables.erase name }

/-- What a use of the database behind one slot of a transaction can do to an engine. -/
inductive UsedThrough (engine : Engine) (handle slot : Nat) : Engine → Prop where
  | same : UsedThrough engine handle slot engine
  | uses {before after : Txn} (htxn : engine.txn? handle = some before)
      (h : Txn.Uses engine.slots slot before after) :
      UsedThrough engine handle slot (engine.replace after)
  | dropped {before base : Txn} (htxn : engine.txn? handle = some before)
      (hslot : slot ≠ mainSlot) (hwriter : before.readOnly = false)
      (h : Txn.Uses engine.slots slot before base) (hname : (engine.slots.info slot).name ≠ []) :
      UsedThrough engine handle slot
        { engine.replace (base.without slot (engine.slots.info slot).name) with
          slots := engine.slots.update SlotInfo.closed slot }

/-- What a use of the transaction with a handle can do to an engine. -/
inductive Used (engine : Engine) (handle : Nat) : Engine → Prop where
  | same : Used engine handle engine
  | through (slot : Nat) {before after : Txn} (htxn : engine.txn? handle = some before)
      (h : Txn.Uses engine.slots slot before after) : Used engine handle (engine.replace after)
  | mainFlags (flags : DbFlags) {before : Txn} (htxn : engine.txn? handle = some before) :
      Used engine handle (engine.replace
        { before with
          main := { before.main with table := { before.main.table with flags := flags } }
          changed := true })
  | occupied {index : Nat} {name : Bytes} {before base : Txn} {content : TxnSlot}
      (htxn : engine.txn? handle = some before)
      (h : Occupies engine.slots index name before base content)
      (hblocked : engine.isBlocked before = false) :
      Used engine handle
        { engine.replace { base with named := placeSlot base.named index content } with
          slots := Engine.occupied engine.slots index name }
  | dropped {slot : Nat} {before base : Txn} (htxn : engine.txn? handle = some before)
      (hslot : slot ≠ mainSlot) (hwriter : before.readOnly = false)
      (h : Txn.Uses engine.slots slot before base) (hname : (engine.slots.info slot).name ≠ []) :
      Used engine handle
        { engine.replace (base.without slot (engine.slots.info slot).name) with
          slots := engine.slots.update SlotInfo.closed slot }

/-! ## Reads and writes -/

variable {engine after : Engine} {handle slot : Nat}

/-- A use of one slot is a use. -/
theorem UsedThrough.used (h : UsedThrough engine handle slot after) : Used engine handle after := by
  cases h with
  | same => exact .same
  | uses htxn h => exact .through slot htxn h
  | dropped htxn hslot hwriter h hname => exact .dropped htxn hslot hwriter h hname

/-- An operation on the transaction with a handle that uses one slot of it. -/
theorem used_onTxn {α : Type} {operation : Txn → Answer Txn α}
    (h : ∀ txn, engine.txn? handle = some txn →
      Txn.Uses engine.slots slot txn (operation txn).2) :
    UsedThrough engine handle slot (engine.onTxn handle operation).2 := by
  unfold onTxn
  split
  · exact .same
  · exact .uses ‹_› (h _ ‹_›)

/-- A transaction that an engine finds has the handle that was asked for. -/
theorem handle_of_txn? {txn : Txn} (h : engine.txn? handle = some txn) : txn.handle = handle := by
  simpa using List.find?_some h

/-- Looking for a transaction after a replacement by one of the same handle. -/
theorem txn?_replace (engine : Engine) (handle : Nat) (txn : Txn) :
    (engine.replace txn).txn? handle =
      (engine.txn? handle).map fun other ↦ if other.handle = txn.handle then txn else other := by
  unfold txn? replace
  rw [← List.map_append, List.find?_map]
  congr 2
  funext other
  simp only [Function.comp_apply]
  split
  · rename_i h
    rw [h]
  · rfl

/-- Two replacements by transactions of the same handle amount to the second. -/
theorem replace_replace (engine : Engine) {first second : Txn} (h : second.handle = first.handle) :
    (engine.replace first).replace second = engine.replace second := by
  have hmap : ∀ txns : List Txn,
      (txns.map fun other ↦ if other.handle = first.handle then first else other).map
          (fun other ↦ if other.handle = second.handle then second else other)
        = txns.map fun other ↦ if other.handle = second.handle then second else other := by
    intro txns
    rw [List.map_map]
    apply List.map_congr_left
    intro other _
    simp only [Function.comp_apply]
    rw [h]
    split <;> simp_all
  simp [replace, hmap]

/-- Reserving a buffer and filling it. -/
theorem used_reserve (key data : Bytes) (flags : WriteFlags) :
    UsedThrough engine handle slot (engine.use handle (.reserve slot key data flags)) := by
  simp only [use, put, onTxn]
  cases htxn : engine.txn? handle with
  | none => exact .same
  | some txn =>
      have hput := Txn.uses_put txn engine.pageLimit engine.slots (engine.isBlocked txn) slot key
        (.reserved data.length) flags
      dsimp only
      rcases hcase : txn.put engine.pageLimit engine.slots (engine.isBlocked txn) slot key
        (.reserved data.length) flags with ⟨code | _, stored⟩
      · simp only [hcase] at hput
        exact .uses htxn hput.1
      · simp only [hcase, true_implies] at hput
        have hfill := Txn.uses_fill engine.slots hput.2 key data
        have hfound : (engine.replace stored).txn? handle = some stored := by
          simp [txn?_replace, htxn, hput.1.kin.handle]
        dsimp only [fill, onTxn]
        simp only [hfound]
        rw [replace_replace _ hfill.kin.handle]
        exact .uses htxn (hput.1.trans hfill)

/-! ## Opens -/

/-- A position that a search finds is occupied by the name, and is among those looked through. -/
theorem searchSlots_fst {slots : SlotTable} {count : Nat} {name : Bytes} {index : Nat}
    (h : (searchSlots slots count name).1 = some index) :
    index < count ∧ (slots.getD index {}).name = name ∧ name ≠ [] := by
  obtain ⟨hlt, hfound, -⟩ := List.findIdx?_eq_some_iff_getElem.mp h
  simp only [List.length_map, List.length_range] at hlt
  simp only [List.getElem_map, List.getElem_range, SlotInfo.isFree, Bool.and_eq_true,
    decide_eq_true_eq] at hfound
  refine ⟨hlt, hfound.2, fun hempty ↦ ?_⟩
  simp [hempty] at hfound

/-- If a search does not find the name, no position that it looked through is occupied by it. -/
theorem searchSlots_fst_eq_none {slots : SlotTable} {count : Nat} {name : Bytes}
    (h : (searchSlots slots count name).1 = none) (hname : name ≠ []) :
    ∀ other < count, (slots.getD other {}).name ≠ name := by
  intro other hother heq
  have hnone := List.findIdx?_eq_none_iff.mp h (slots.getD other {})
    (List.mem_map.mpr ⟨other, List.mem_range.mpr hother, rfl⟩)
  rw [SlotInfo.isFree, heq] at hnone
  simp [hname] at hnone

/-- The place that a search finds for a new occupant is at most one past those looked through. -/
theorem searchSlots_snd_le (slots : SlotTable) (count : Nat) (name : Bytes) :
    (searchSlots slots count name).2.getD count ≤ count := by
  unfold searchSlots
  dsimp only
  cases h : ((List.range count).map fun index ↦ List.getD slots index {}).findIdx? (·.isFree) with
  | none => exact Nat.le_refl _
  | some index =>
      obtain ⟨hlt, -⟩ := List.findIdx?_eq_some_iff_getElem.mp h
      simpa using Nat.le_of_lt hlt

/-- A use of no slot is no record either. -/
theorem records_of_uses {slots : SlotTable} {name : Bytes} {before after : Txn}
    (h : Txn.Uses slots 0 before after) : Records name before after :=
  ⟨h.kin, h.named_eq, h.mainUsable, h.mainSequence, fun hstale ↦ (h.main hstale).1,
    fun _ _ ↦ by rw [h.mainTable (by decide)],
    fun _ _ ↦ by simp [Snapshot.table, Txn.snapshot, h.tables]⟩

/-- Nothing has been recorded. -/
theorem Records.refl (name : Bytes) (txn : Txn) : Records name txn txn :=
  ⟨.refl txn, rfl, rfl, rfl, id, fun _ _ ↦ rfl, fun _ _ ↦ rfl⟩

/-- A refused creation of a database leaves no more than claimed pages. -/
theorem createRecord_error {txn base : Txn} {name : Bytes} {flags : DbFlags} {code : Code}
    (h : engine.createRecord txn name flags = (.error code, base)) :
    Txn.Uses engine.slots 0 txn base := by
  obtain ⟨htouch, hroot⟩ := Txn.uses_prepareMain engine.slots 0 txn engine.pageLimit engine.slots
  unfold createRecord at h
  dsimp only at h
  split at h
  · obtain rfl := (Prod.mk.inj h).2
    exact .refl txn
  split at h
  · obtain rfl := (Prod.mk.inj h).2
    exact .refl txn
  by_cases hempty : txn.main.table.isEmpty
  · simp only [hempty, if_true] at h
    split at h <;> simp_all
  · simp only [hempty] at h
    split at h <;> simp_all

/-- Adding the record of a new database to the main table. -/
theorem createRecord_ok {txn base : Txn} {name : Bytes} {flags : DbFlags} {table : Table}
    (h : engine.createRecord txn name flags = (.ok table, base)) :
    txn.readOnly = false ∧ Records name txn base := by
  obtain ⟨htouch, hroot⟩ := Txn.uses_prepareMain engine.slots 0 txn engine.pageLimit engine.slots
  have hadded : ∀ prepared : Txn, Txn.Uses engine.slots 0 txn prepared →
      base = { prepared with
        main := { prepared.main with table := prepared.main.table.insert name .database }
        tables := prepared.tables.insert .bytewise name { flags := flags.persistent } } →
      Records name txn base := by
    rintro prepared huses rfl
    have hbase : Records name txn prepared := records_of_uses huses
    refine ⟨⟨hbase.kin.handle, hbase.kin.readOnly, hbase.kin.idle, hbase.kin.commit,
      hbase.kin.reader⟩, hbase.named, hbase.mainUsable, hbase.mainSequence, hbase.mainStale, ?_, ?_⟩
    · intro other hother
      rw [← hbase.records other hother]
      exact Entries.find?_insert_of_ne _ _ _ hother
    · intro other hother
      rw [← hbase.tables other hother]
      exact congrArg (fun found : Option Table ↦ found.getD {})
        (Entries.find?_insert_of_ne _ _ _ hother)
  unfold createRecord at h
  dsimp only at h
  split at h
  · simp [refuseSystem] at h
  rename_i hwriter
  refine ⟨by simpa using hwriter, ?_⟩
  split at h
  · simp [refuse] at h
  by_cases hempty : txn.main.table.isEmpty
  · simp only [hempty, if_true] at h
    split at h <;> rename_i hc
    · simp at h
    · rw [hc] at hroot
      exact hadded _ hroot (Prod.mk.inj h).2.symm
  · simp only [hempty] at h
    split at h <;> rename_i hc
    · simp at h
    · simp only [Bool.false_eq_true, if_false] at hc
      rw [hc] at htouch
      exact hadded _ htouch (Prod.mk.inj h).2.symm

/-- Giving a name a position, with its table: what becomes of the engine, and the answer. -/
theorem used_occupy {txn base : Txn} (htxn : engine.txn? handle = some txn)
    (hblocked : engine.isBlocked txn = false) {index : Nat} {name : Bytes} {table : Table}
    {created : Bool} (hrecords : Records name txn base)
    (hindex : index ≤ txn.named.length) (hname : name ≠ [])
    (hunseen : ∀ other < txn.named.length, (engine.slots.getD other {}).name ≠ name)
    (hclean : created = false → base = txn ∧ table = txn.snapshot.table name)
    (hwriter : txn.readOnly = true → created = false) :
    Used engine handle (engine.occupy base index name table created).2 ∧
      ∀ slot, (engine.occupy base index name table created).1 = .ok slot →
        mainSlot < slot ∧
          ((engine.occupy base index name table created).2.slots.info slot).name = name := by
  have hself := SlotTable.getD_updateAt_self
    (fun info ↦ { info with name := name, sequence := info.sequence + 1 }) engine.slots index
  constructor
  · have hoccupies : Occupies engine.slots index name txn base
        { usable := true
          fresh := true
          dirty := created
          sequence := ((occupied engine.slots index name).getD index {}).sequence
          table := table } :=
      ⟨hrecords, hindex, hname, hunseen, rfl, rfl, rfl, congrArg SlotInfo.sequence hself, hclean,
        hwriter⟩
    exact .occupied htxn hoccupies hblocked
  · rintro slot hslot
    obtain rfl : index + firstSlot = slot := by simpa [occupy] using hslot
    exact ⟨by simp [mainSlot, firstSlot], congrArg SlotInfo.name hself⟩

/-- The answer to an open of a named database, and what it does to the engine. -/
theorem OpenNamedOutcome.cases {txn : Txn} {name : Bytes} {flags : DbFlags}
    {answer : Answer Engine Nat} (h : OpenNamedOutcome engine txn name flags answer)
    (htxn : engine.txn? handle = some txn) (hblocked : engine.isBlocked txn = false) :
    Used engine handle answer.2 ∧
      ∀ slot, answer.1 = .ok slot →
        mainSlot < slot ∧ (answer.2.slots.info slot).name = name := by
  have hplace : ∀ {index : Nat},
      (searchSlots engine.slots txn.named.length name).2.getD txn.named.length = index →
        index ≤ txn.named.length := fun hindex ↦ hindex ▸ searchSlots_snd_le ..
  cases h with
  | known hsearch =>
      refine ⟨.same, fun slot hslot ↦ ?_⟩
      obtain rfl := Except.ok.inj hslot
      exact ⟨by simp [mainSlot, firstSlot], (searchSlots_fst hsearch).2.1⟩
  | refused => exact ⟨.same, by simp [refuse]⟩
  | unrecorded _ _ _ hcreate => exact ⟨.through 0 htxn (createRecord_error hcreate), by simp⟩
  | found hsearch hname hindex =>
      exact used_occupy htxn hblocked (.refl name txn) (hplace hindex) hname
        (searchSlots_fst_eq_none hsearch hname) (fun _ ↦ ⟨rfl, rfl⟩) fun _ ↦ rfl
  | created hsearch hname hindex _ hcreate =>
      obtain ⟨hwriter, hrecords⟩ := createRecord_ok hcreate
      exact used_occupy htxn hblocked hrecords (hplace hindex) hname
        (searchSlots_fst_eq_none hsearch hname) (by simp) (by simp [hwriter])

/-- The answer to an open, and what it does to the engine. -/
theorem openDatabase_cases (engine : Engine) (handle : Nat) (name : Option Bytes)
    (flags : DbFlags) :
    Used engine handle (engine.openDatabase handle name flags).2 ∧
      ∀ slot, (engine.openDatabase handle name flags).1 = .ok slot →
        ∃ txn, engine.txn? handle = some txn ∧ engine.isBlocked txn = false ∧
          match name with
          | none => slot = mainSlot
          | some name => mainSlot < slot ∧
              ((engine.openDatabase handle (some name) flags).2.slots.info slot).name = name := by
  have houtcome := engine.openDatabase_outcome handle name flags
  cases name with
  | none =>
      dsimp only
      generalize engine.openDatabase handle none flags = answer at houtcome ⊢
      cases houtcome with
      | unknown | misflagged | blocked => exact ⟨.same, by simp [refuse, refuseSystem]⟩
      | main htxn hblocked =>
          exact ⟨.same, fun slot hslot ↦ ⟨_, htxn, hblocked, (Except.ok.inj hslot).symm⟩⟩
      | mainFlags htxn hblocked =>
          exact ⟨.mainFlags _ htxn,
            fun slot hslot ↦ ⟨_, htxn, hblocked, (Except.ok.inj hslot).symm⟩⟩
  | some name =>
      dsimp only
      generalize engine.openDatabase handle (some name) flags = answer at houtcome ⊢
      cases houtcome with
      | unknown | misflagged | blocked => exact ⟨.same, by simp [refuse, refuseSystem]⟩
      | named htxn hblocked hnamed =>
          obtain ⟨hused, hanswer⟩ := hnamed.cases htxn hblocked
          exact ⟨hused, fun slot hslot ↦ ⟨_, htxn, hblocked, hanswer slot hslot⟩⟩

/-! ## Drops -/

/-- Emptying the table behind a slot is a use of it. -/
theorem uses_clear (slots : SlotTable) (txn : Txn) (slot : Nat) :
    Txn.Uses slots slot txn
      { txn.modifySlot slot (fun content ↦
          { content with dirty := true, table := content.table.clear }) with changed := true } := by
  have hclear : Txn.Uses slots slot txn (txn.modifySlot slot fun content ↦
      { content with dirty := true, table := content.table.clear }) :=
    Txn.uses_modifySlot (fun _ _ ↦ .of_dirty rfl rfl rfl rfl) fun _ _ hstale ↦
      ⟨hstale, fun _ hname ↦ by simp [Table.clear, Table.find?, Entries.find?] at hname⟩
  exact hclear.trans (Txn.uses_of_eq ⟨rfl, rfl, rfl, rfl, rfl⟩ rfl rfl rfl)

/-- Removing the named database behind a slot. A refused removal leaves a broken transaction. -/
theorem used_dropSlot {txn base : Txn} (htxn : engine.txn? handle = some txn)
    (hslot : slot ≠ mainSlot) (hwriter : txn.readOnly = false)
    (h : Txn.Uses engine.slots slot txn base) :
    UsedThrough engine handle slot (engine.dropSlot base slot).2 ∧
      ((engine.dropSlot base slot).1 = .ok () →
        (engine.slots.info slot).name ≠ [] ∧
          (engine.dropSlot base slot).2.slots = engine.slots.update SlotInfo.closed slot) := by
  have hbroken : ∀ txn' : Txn, Txn.Uses engine.slots slot base txn' →
      UsedThrough engine handle slot (engine.replace { txn' with broken := true }) := fun txn' h' ↦
    .uses htxn ((h.trans h').trans (Txn.uses_of_eq ⟨rfl, rfl, rfl, rfl, rfl⟩ rfl rfl rfl))
  have htouch := (Txn.uses_prepareMain engine.slots slot base engine.pageLimit engine.slots).1
  unfold dropSlot
  dsimp only
  split
  · exact ⟨hbroken base (.refl base), by simp [refuse]⟩
  rename_i hname
  split
  · exact ⟨hbroken base (.refl base), by simp [refuse]⟩
  split <;> rename_i hc <;> simp only [hc] at htouch
  · exact ⟨hbroken _ htouch, by simp⟩
  · split
    · exact ⟨hbroken _ htouch, by simp [refuse]⟩
    · have hname : (engine.slots.info slot).name ≠ [] := by simpa using hname
      exact ⟨.dropped htxn hslot hwriter (h.trans htouch) hname, fun _ ↦ ⟨hname, rfl⟩⟩

/-- The answer to a drop, and what it does to the engine. -/
theorem drop_cases (engine : Engine) (handle slot : Nat) (delete : Bool) :
    UsedThrough engine handle slot (engine.drop handle slot delete).2 ∧
      ((engine.drop handle slot delete).1 = .ok () →
        (∃ txn, engine.txn? handle = some txn ∧ engine.isBlocked txn = false ∧
          txn.readOnly = false) ∧
        (delete = true → slot ≠ mainSlot →
          (engine.slots.info slot).name ≠ [] ∧
          (engine.drop handle slot delete).2.slots =
            engine.slots.update SlotInfo.closed slot)) := by
  have houtcome := engine.drop_outcome handle slot delete
  generalize engine.drop handle slot delete = answer at houtcome ⊢
  have hload : ∀ {txn : Txn} {content : TxnSlot}, txn.usable? slot = some content →
      Txn.Uses engine.slots slot txn (txn.tryLoad engine.slots slot content) := fun husable ↦
    Txn.uses_tryLoad (Txn.slot?_of_usable? husable).1
  cases houtcome with
  | unknown | unusable | reader | outdated | blocked | unread =>
      exact ⟨.same, by simp [refuse, refuseSystem]⟩
  | dropped htxn hwritable _ hslot hdrop =>
      obtain ⟨hused, hok⟩ := used_dropSlot htxn hslot hwritable.writer (hload hwritable.usable)
      rw [hdrop] at hused hok
      exact ⟨hused, fun h ↦ ⟨⟨_, htxn, hwritable.unblocked, hwritable.writer⟩, fun _ _ ↦ hok h⟩⟩
  | cleared htxn hwritable hkept =>
      exact ⟨.uses htxn ((hload hwritable.usable).trans (uses_clear engine.slots _ slot)),
        fun _ ↦ ⟨⟨_, htxn, hwritable.unblocked, hwritable.writer⟩,
          fun hdelete hslot ↦ absurd (hkept hdelete) hslot⟩⟩

/-! ## All uses -/

/-- What a use of a database through a slot does to an engine is among what `UsedThrough` lists. -/
theorem use_usedThrough (engine : Engine) (handle : Nat) {use : Use} (h : use.slot? = some slot) :
    UsedThrough engine handle slot (engine.use handle use) := by
  cases use with
  | openDatabase => simp [Use.slot?] at h
  | get _ key =>
      obtain rfl := Option.some.inj h
      exact used_onTxn fun txn _ ↦ txn.uses_get _ _ _ key
  | stat =>
      obtain rfl := Option.some.inj h
      exact used_onTxn fun txn _ ↦ txn.uses_stat _ _ _
  | put _ key payload flags =>
      obtain rfl := Option.some.inj h
      exact used_onTxn fun txn _ ↦ (txn.uses_put _ _ _ _ key payload flags).1
  | reserve _ key data flags =>
      obtain rfl := Option.some.inj h
      exact used_reserve key data flags
  | del _ key item =>
      obtain rfl := Option.some.inj h
      exact used_onTxn fun txn _ ↦ txn.uses_del _ _ _ _ key item
  | drop _ delete =>
      obtain rfl := Option.some.inj h
      exact (drop_cases engine handle _ delete).1

/-- What a use of a transaction does to an engine is among what `Used` lists. -/
theorem use_used (engine : Engine) (handle : Nat) (use : Use) :
    Used engine handle (engine.use handle use) := by
  cases hslot : use.slot? with
  | some slot => exact (use_usedThrough engine handle hslot).used
  | none =>
      cases use with
      | openDatabase name flags => exact (openDatabase_cases engine handle name flags).1
      | _ => simp [Use.slot?] at hslot

end Engine

end MappedStore
