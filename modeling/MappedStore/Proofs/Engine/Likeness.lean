import MappedStore.Proofs.Engine.Residue
import MappedStore.Proofs.Engine.Turns

/-!
# Engines that differ in their residue only

Two engines are alike if they are the same without the table of reader slots and without the tables
that are left in memory. Whatever is done to both gives the same answer and leaves them alike, if no
reader is refused for want of a reader slot and no table that cannot be read is asked for.
-/

namespace MappedStore

open Engine

namespace Engine

/-! ## Bare engines -/

/-- An engine without what is left behind in it: the table of reader slots, and the tables in
memory. -/
def bare (engine : Engine) : Engine :=
  { engine with
    readers := {}
    memory := []
    writers := engine.writers.map Txn.bare
    reading := engine.reading.map Txn.bare }

variable {engine left right : Engine} {handle slot : Nat} {txn : Txn}

/-- A bare engine has nothing more to lose. -/
@[simp]
theorem bare_bare (engine : Engine) : engine.bare.bare = engine.bare := by
  simp [bare, Function.comp_def]

/-- The transactions of a bare engine. -/
theorem txn?_bare (engine : Engine) (handle : Nat) :
    engine.bare.txn? handle = (engine.txn? handle).map Txn.bare := by
  unfold txn? bare
  rw [← List.map_append, List.find?_map]
  rfl

/-- Replacing a transaction. -/
theorem bare_replace (engine : Engine) (txn : Txn) :
    (engine.replace txn).bare = engine.bare.replace txn.bare := by
  have hmap (txns : List Txn) :
      (txns.map fun other ↦ if other.handle = txn.handle then txn else other).map Txn.bare =
        (txns.map Txn.bare).map
          fun other ↦ if other.handle = txn.bare.handle then txn.bare else other := by
    rw [List.map_map, List.map_map]
    refine List.map_congr_left fun other _ ↦ ?_
    rw [Function.comp_apply, Function.comp_apply, apply_ite Txn.bare]
    rfl
  simp only [replace, bare, hmap]

/-- Whether a transaction can be used. -/
theorem isBlocked_bare (engine : Engine) (txn : Txn) :
    engine.bare.isBlocked txn.bare = engine.isBlocked txn := by
  unfold isBlocked
  rw [show engine.bare.writers = engine.writers.map Txn.bare from rfl, List.head?_map,
    Option.map_map]
  rfl

/-- An operation on a transaction that commutes with making it bare. -/
theorem onTxn_bare {α : Type} {operation operation' : Txn → Answer Txn α}
    (h : ∀ txn, engine.txn? handle = some txn →
      operation' txn.bare = (operation txn).map id Txn.bare) :
    engine.bare.onTxn handle operation' = (engine.onTxn handle operation).map id bare := by
  unfold onTxn
  rw [txn?_bare]
  cases htxn : engine.txn? handle with
  | none => rfl
  | some txn =>
      simp only [Option.map_some, h txn htxn]
      exact Prod.ext rfl (engine.bare_replace _).symm

/-! ## Data -/

/-- Reading the value of a key. -/
theorem get_bare (engine : Engine) (handle slot : Nat) (key : Bytes) :
    engine.bare.get handle slot key = (engine.get handle slot key).map id bare :=
  onTxn_bare fun txn _ ↦ by
    rw [isBlocked_bare]
    exact txn.get_bare engine.slots _ slot key

/-- The table of a slot that a transaction can use can be read, unless it only reads. -/
def Reads (engine : Engine) (handle slot : Nat) : Prop :=
  ∀ txn, engine.txn? handle = some txn → txn.Reads engine.slots slot

/-- The figures of the table behind a slot that can be read. -/
theorem statOf_bare (h : engine.Reads handle slot) :
    engine.bare.statOf handle slot = (engine.statOf handle slot).map id bare :=
  onTxn_bare fun txn htxn ↦ by
    rw [isBlocked_bare]
    exact Txn.stat_bare (h txn htxn) _

/-- Storing a value through a slot whose table can be read. -/
theorem put_bare (h : engine.Reads handle slot) (key : Bytes) (payload : Payload)
    (flags : WriteFlags) : engine.bare.put handle slot key payload flags
      = (engine.put handle slot key payload flags).map id bare :=
  onTxn_bare fun txn htxn ↦ by
    rw [isBlocked_bare]
    exact Txn.put_bare (h txn htxn) engine.pageLimit _ key payload flags

/-- Removing values through a slot. -/
theorem del_bare (engine : Engine) (handle slot : Nat) (key : Bytes) (item : Option Bytes) :
    engine.bare.del handle slot key item = (engine.del handle slot key item).map id bare :=
  onTxn_bare fun txn _ ↦ by
    rw [isBlocked_bare]
    exact txn.del_bare engine.pageLimit engine.slots _ slot key item

/-- Filling a reserved buffer. -/
theorem fill_agree (engine : Engine) (handle slot : Nat) (key data : Bytes) :
    (engine.bare.fill handle slot key data).bare = (engine.fill handle slot key data).bare := by
  unfold fill onTxn
  rw [txn?_bare]
  cases engine.txn? handle with
  | none => exact bare_bare engine
  | some txn =>
      dsimp only [Option.map_some]
      rw [bare_replace, bare_replace, bare_bare, txn.fill_bare]

/-! ## Opens -/

/-- A table of the transaction's own at one of its positions. -/
theorem bare_placeSlot (txn : Txn) (index : Nat) {content : TxnSlot}
    (h : content.bare txn.readOnly = content) :
    ({ txn with named := placeSlot txn.named index content } : Txn).bare =
      { txn.bare with named := placeSlot txn.bare.named index content } := by
  have hplace : (placeSlot txn.named index content).map (TxnSlot.bare txn.readOnly) =
      placeSlot (txn.named.map (TxnSlot.bare txn.readOnly)) index content := by
    unfold placeSlot
    rw [List.length_map]
    split <;> simp [List.map_set, h]
  exact congrArg (fun named ↦ { txn with reader := none, named := named }) hplace

/-- Letting a name occupy a position. -/
theorem occupy_bare (engine : Engine) (txn : Txn) (index : Nat) (name : Bytes) (table : Table)
    (created : Bool) : engine.bare.occupy txn.bare index name table created
      = (engine.occupy txn index name table created).map id bare := by
  have hbare := engine.bare_replace { txn with
    named := placeSlot txn.named index
      { usable := true
        fresh := true
        dirty := created
        sequence := ((occupied engine.slots index name).getD index {}).sequence
        table := table } }
  rw [bare_placeSlot txn index (by cases txn.readOnly <;> simp [TxnSlot.bare, TxnSlot.isOwn])]
    at hbare
  exact Prod.ext rfl (congrArg
    (fun replaced ↦ { replaced with slots := occupied engine.slots index name }) hbare.symm)

/-- Adding the record of a new database to the main table. -/
theorem createRecord_bare (engine : Engine) (txn : Txn) (name : Bytes) (flags : DbFlags) :
    engine.bare.createRecord txn.bare name flags
      = (engine.createRecord txn name flags).map id Txn.bare := by
  have howns : txn.Owns mainSlot := fun _ _ ↦ .inl rfl
  unfold createRecord
  rw [Txn.newRoot_bare howns, show engine.bare.slots = engine.slots from rfl,
    Txn.touch_bare howns, show txn.bare.readOnly = txn.readOnly from rfl,
    show txn.bare.main = txn.main from rfl]
  dsimp only
  split
  · rfl
  split
  · rfl
  rw [← apply_ite (Prod.map id Txn.bare)]
  rw [show engine.bare.pageLimit = engine.pageLimit from rfl]
  generalize (if txn.main.table.isEmpty = true then _ else _ : Answer Txn Unit) = prepared
  rcases prepared with ⟨code | ⟨⟨⟩⟩, prepared⟩ <;> rfl

/-- Opening the main database. -/
theorem openMain_bare (engine : Engine) (txn : Txn) (flags : DbFlags) :
    engine.bare.openMain txn.bare flags = (engine.openMain txn flags).map id bare := by
  unfold openMain
  rw [show txn.bare.main = txn.main from rfl]
  dsimp only
  split
  · rfl
  · have hbare := engine.bare_replace
      { txn with
        main := { txn.main with
          table := { txn.main.table with flags := txn.main.table.flags.union flags.persistent } }
        changed := true }
    exact Prod.ext rfl hbare.symm

/-- Opening a named database. -/
theorem openNamed_bare (engine : Engine) (txn : Txn) (name : Bytes) (flags : DbFlags) :
    engine.bare.openNamed txn.bare name flags = (engine.openNamed txn name flags).map id bare := by
  have hlength : txn.bare.named.length = txn.named.length := List.length_map _
  unfold openNamed
  rw [hlength, show engine.bare.slots = engine.slots from rfl,
    show engine.bare.maxSlots = engine.maxSlots from rfl,
    show txn.bare.main = txn.main from rfl, show txn.bare.snapshot = txn.snapshot from rfl]
  split
  · rfl
  · rename_i unused _
    dsimp only
    rw [createRecord_bare, occupy_bare]
    split
    · rfl
    split
    · rfl
    split
    · rfl
    split
    · rfl
    · rfl
    · split
      · rfl
      · rcases engine.createRecord txn name flags with ⟨code | table, recorded⟩
        · exact Prod.ext rfl (engine.bare_replace _).symm
        · exact occupy_bare engine recorded _ name table true

/-- Opening a database. -/
theorem openDatabase_bare (engine : Engine) (handle : Nat) (name : Option Bytes)
    (flags : DbFlags) : engine.bare.openDatabase handle name flags
      = (engine.openDatabase handle name flags).map id bare := by
  unfold openDatabase
  rw [txn?_bare]
  cases engine.txn? handle with
  | none => rfl
  | some txn =>
      simp only [Option.map_some, isBlocked_bare]
      split
      · rfl
      split
      · rfl
      cases name with
      | none => exact engine.openMain_bare txn flags
      | some name => exact engine.openNamed_bare txn name flags

/-! ## Drops -/

/-- Two answers of an engine that are the same, and the engines that they leave but for their
residue. -/
def Agree {α : Type} (answer answer' : Answer Engine α) : Prop :=
  answer.1 = answer'.1 ∧ answer.2.bare = answer'.2.bare

/-- An operation that commutes with making an engine bare gives answers that agree. -/
theorem agree_of_bare {α : Type} {answer answer' : Answer Engine α}
    (h : answer' = answer.map id bare) : Agree answer' answer := by
  rw [h]
  exact ⟨rfl, bare_bare _⟩

/-- Emptying the table behind a slot. -/
theorem clearSlot_bare (engine : Engine) (txn : Txn) (slot : Nat) :
    engine.bare.clearSlot txn.bare slot = (engine.clearSlot txn slot).map id bare := by
  have hmodify : (txn.modifySlot slot fun content ↦
      { content with dirty := true, table := content.table.clear }).bare = _ :=
    Txn.bare_modifySlot fun content _ ↦ by
      cases hreader : txn.readOnly <;> by_cases hslot : slot = mainSlot <;>
        simp [Txn.bareSlot, TxnSlot.bare, TxnSlot.isOwn, Table.clear, hreader, hslot]
      split <;> rfl
  have hchanged := congrArg (fun txn : Txn ↦ { txn with changed := true }) hmodify
  exact Prod.ext rfl ((engine.bare_replace _).trans (congrArg engine.bare.replace hchanged)).symm

/-- A transaction without the named database behind a slot. -/
theorem bare_without (txn : Txn) (slot : Nat) (name : Bytes) :
    (txn.bare.without slot name).bare = (txn.without slot name).bare := by
  have hmodify : (txn.bare.modifySlot slot fun content ↦
      { content with usable := false, stale := true, fresh := false, dirty := false }).bare = _ :=
    Txn.bare_modifySlot_bare fun content ↦ by
      cases hreader : txn.readOnly <;> by_cases hslot : slot = mainSlot <;>
        simp [Txn.bareSlot, TxnSlot.bare, TxnSlot.isOwn, hreader, hslot]
      split <;> rfl
  exact congrArg (fun txn : Txn ↦
    { txn with
      main := { txn.main with table := txn.main.table.erase name }
      tables := txn.tables.erase name }) hmodify

/-- Removing the named database behind a slot. -/
theorem dropSlot_agree (engine : Engine) (txn : Txn) (slot : Nat) :
    Agree (engine.bare.dropSlot txn.bare slot) (engine.dropSlot txn slot) := by
  have howns : txn.Owns mainSlot := fun _ _ ↦ .inl rfl
  have hbroken (txn : Txn) : (engine.bare.replace { txn.bare with broken := true }).bare =
      (engine.replace { txn with broken := true }).bare := by
    rw [bare_replace, bare_replace, bare_bare]
    exact congrArg engine.bare.replace (Txn.bare_bare { txn with broken := true })
  unfold dropSlot
  rw [show engine.bare.slots = engine.slots from rfl,
    show engine.bare.pageLimit = engine.pageLimit from rfl, Txn.touch_bare howns,
    show txn.bare.main = txn.main from rfl]
  dsimp only
  split
  · exact ⟨rfl, hbroken txn⟩
  split
  · exact ⟨rfl, hbroken txn⟩
  rcases txn.touch engine.pageLimit engine.slots mainSlot with ⟨code | ⟨⟨⟩⟩, touched⟩
  · exact ⟨rfl, hbroken touched⟩
  · dsimp only [Prod.map, id]
    split
    · exact ⟨rfl, hbroken touched⟩
    · refine ⟨rfl, ?_⟩
      have hwithout := bare_without touched slot (engine.slots.info slot).name
      have hreplace : (engine.bare.replace
          (touched.bare.without slot (engine.slots.info slot).name)).bare =
          (engine.replace (touched.without slot (engine.slots.info slot).name)).bare := by
        rw [bare_replace, bare_replace, bare_bare, hwithout]
      exact congrArg (fun replaced ↦
        { replaced with slots := engine.slots.update SlotInfo.closed slot }) hreplace

/-- Emptying a database, or removing a named one. -/
theorem drop_agree (engine : Engine) (handle slot : Nat) (delete : Bool) :
    Agree (engine.bare.drop handle slot delete) (engine.drop handle slot delete) := by
  unfold drop
  rw [txn?_bare]
  cases engine.txn? handle with
  | none => exact ⟨rfl, bare_bare engine⟩
  | some txn =>
      simp only [Option.map_some, Txn.usable?_bare, isBlocked_bare]
      cases husable : txn.usable? slot with
      | none => exact ⟨rfl, bare_bare engine⟩
      | some content =>
          simp only [Option.map_some, show engine.bare.slots = engine.slots from rfl,
            Txn.isOutdated_bare, Txn.load_bare husable, Txn.tryLoad_bare husable]
          rw [show txn.bare.readOnly = txn.readOnly from rfl]
          split
          · exact ⟨rfl, bare_bare engine⟩
          split
          · exact ⟨rfl, bare_bare engine⟩
          split
          · exact ⟨rfl, bare_bare engine⟩
          have hdropped (txn : Txn) : Agree
              (if (delete && decide (slot ≠ mainSlot)) = true then engine.bare.dropSlot txn.bare slot
                else engine.bare.clearSlot txn.bare slot)
              (if (delete && decide (slot ≠ mainSlot)) = true then engine.dropSlot txn slot
                else engine.clearSlot txn slot) := by
            split
            · exact engine.dropSlot_agree txn slot
            · exact agree_of_bare (engine.clearSlot_bare txn slot)
          cases txn.load engine.slots slot content with
          | error condition =>
              cases condition <;>
                first | exact ⟨rfl, bare_bare engine⟩ | exact hdropped _
          | ok loaded => exact hdropped _

/-! ## Beginnings -/

/-- A reader slot was not refused. -/
def Seated {α : Type} (result : Except Code α) : Prop :=
  result ≠ .error Condition.badRslot.code ∧ result ≠ .error Condition.readersFull.code

/-- Answers agree that agree with the same. -/
theorem Agree.of_bare {α : Type} {answer answer' : Answer Engine α} {left' right' : Answer Engine α}
    (hleft : Agree answer left') (hright : Agree answer' right') (h : answer = answer') :
    Agree left' right' :=
  ⟨hleft.1.symm.trans (.trans (congrArg Prod.fst h) hright.1),
    hleft.2.symm.trans (.trans (congrArg (fun answer ↦ answer.2.bare) h) hright.2)⟩

/-- An operation that commutes with making an engine bare gives answers that agree on engines that
are alike. -/
theorem agree_of_alike {α : Type} (operation : Engine → Answer Engine α) (h : left.bare = right.bare)
    (hleft : operation left.bare = (operation left).map id bare)
    (hright : operation right.bare = (operation right).map id bare) :
    Agree (operation left) (operation right) :=
  (agree_of_bare hleft).of_bare (agree_of_bare hright) (by rw [h])

/-- A reader slot is had, or refused for one of two reasons. -/
theorem claimReader_seated {thread : Nat} {owned : Option Nat} {condition : Condition}
    (h : engine.claimReader thread owned = .error condition) :
    condition = .badRslot ∨ condition = .readersFull := by
  unfold claimReader at h
  split at h
  · cases h
  · split at h
    · exact .inl (Except.error.inj h).symm
    · exact .inr (Except.error.inj h).symm
    · cases h

/-- What a transaction that only reads holds of its named slots is its own. -/
@[simp]
theorem map_bare_reader (named : List TxnSlot) : named.map (TxnSlot.bare true) = named :=
  List.map_id'' (fun _ ↦ rfl) named

/-- The begin of a reader that needs no reader slot. -/
def beginUnseated (engine : Engine) : Answer Engine Nat :=
  (.ok engine.nextHandle,
    { engine with
      reading := engine.newReader none :: engine.reading
      nextHandle := engine.nextHandle + 1 })

/-- The begin of a reader that has not been refused a reader slot. -/
theorem beginRead_agree {thread : Nat} (h : Seated (engine.beginRead thread).1) :
    Agree engine.bare.beginUnseated (engine.beginRead thread) := by
  rcases engine.claimReader_cases thread none with ⟨condition, hclaim⟩ | ⟨reader, readers, hclaim⟩
  · unfold beginRead at h
    rw [hclaim] at h
    rcases claimReader_seated hclaim with rfl | rfl
    · exact absurd rfl h.1
    · exact absurd rfl h.2
  · unfold beginRead
    rw [hclaim]
    refine ⟨rfl, ?_⟩
    simp [beginUnseated, bare, newReader, Txn.bare, Function.comp_def]

/-- The slots of a new writer before it has read any. -/
theorem fresh_bare (slots : SlotTable) (known : Nat) (memory memory' : List (Option Table)) :
    (slots.fresh known memory).map (TxnSlot.bare false)
      = (slots.fresh known memory').map (TxnSlot.bare false) := by
  unfold SlotTable.fresh
  rw [List.map_map, List.map_map]
  refine List.map_congr_left fun index _ ↦ ?_
  simp [TxnSlot.bare, TxnSlot.isOwn]

/-- The begin of a root writer. -/
theorem beginWrite_agree (engine : Engine) : Agree engine.bare.beginWrite engine.beginWrite := by
  have hfresh := fresh_bare engine.slots engine.known [] engine.memory
  unfold beginWrite
  rw [show engine.bare.pageLimit = engine.pageLimit from rfl,
    show engine.bare.image = engine.image from rfl]
  split
  · exact ⟨rfl, bare_bare engine⟩
  · exact ⟨rfl, by simp [bare, Txn.bare, Function.comp_def, hfresh]⟩

/-- The begin of a nested transaction. -/
theorem beginNested_bare (engine : Engine) (parent : Nat) (flags : TxnFlags) :
    engine.bare.beginNested parent flags = (engine.beginNested parent flags).map id bare := by
  unfold beginNested
  rw [txn?_bare]
  cases engine.txn? parent with
  | none => rfl
  | some txn =>
      simp only [Option.map_some, isBlocked_bare]
      rw [show txn.bare.readOnly = txn.readOnly from rfl,
        show engine.bare.flags = engine.flags from rfl]
      split
      · rfl
      split
      · rfl
      have hnamed : (txn.named.map (TxnSlot.bare txn.readOnly)).map ({ · with fresh := false }) =
          (txn.named.map ({ · with fresh := false })).map (TxnSlot.bare txn.readOnly) := by
        rw [List.map_map, List.map_map]
        refine List.map_congr_left fun content _ ↦ ?_
        cases txn.readOnly <;> rfl
      refine Prod.ext rfl ?_
      exact congrArg (fun named ↦
        { engine.bare with
          writers :=
            { txn.bare with handle := engine.nextHandle, named := named } :: engine.bare.writers
          nextHandle := engine.nextHandle + 1 }) hnamed

/-- Begins on two engines that are alike, neither of which refuses a reader slot. -/
theorem begin_agree (h : left.bare = right.bare) {parent : Option Nat} {flags : TxnFlags}
    {thread : Nat} (hleft : Seated (left.begin parent flags thread).1)
    (hright : Seated (right.begin parent flags thread).1) :
    Agree (left.begin parent flags thread) (right.begin parent flags thread) := by
  have hflags : left.bare.flags = right.bare.flags := congrArg Engine.flags h
  unfold begin at hleft hright ⊢
  rw [show right.flags = left.flags from hflags.symm] at hright ⊢
  split
  · exact ⟨rfl, h⟩
  · rename_i hallowed
    rw [if_neg hallowed] at hleft hright
    cases parent with
    | some parent =>
        exact (agree_of_bare (left.beginNested_bare parent flags)).of_bare
          (agree_of_bare (right.beginNested_bare parent flags)) (by rw [h])
    | none =>
        dsimp only at hleft hright ⊢
        split
        · rename_i hreads
          rw [if_pos hreads] at hleft hright
          exact (beginRead_agree hleft).of_bare (beginRead_agree hright) (by rw [h])
        · exact left.beginWrite_agree.of_bare right.beginWrite_agree (by rw [h])

/-! ## Endings -/

/-- Which slots were opened in a transaction does not depend on their tables. -/
theorem discard_bare (slots : SlotTable) (txn : Txn) :
    slots.discard txn.bare.named = slots.discard txn.named := by
  unfold SlotTable.discard
  refine congrArg (slots.mapIdx ·) (funext fun index ↦ funext fun info ↦ ?_)
  rw [show txn.bare.named = txn.named.map (TxnSlot.bare txn.readOnly) from rfl,
    List.getD_eq_getElem?_getD, List.getD_eq_getElem?_getD, List.getElem?_map]
  cases txn.named[index]? with
  | none => rfl
  | some content => cases txn.readOnly <;> rfl

/-- What becomes known of the slots that a transaction opened are the flags of their tables. -/
theorem keep_bare (slots : SlotTable) (txn : Txn) :
    slots.keep txn.bare.named = slots.keep txn.named := by
  unfold SlotTable.keep
  refine congrArg (slots.mapIdx ·) (funext fun index ↦ funext fun info ↦ ?_)
  rw [show txn.bare.named = txn.named.map (TxnSlot.bare txn.readOnly) from rfl,
    List.getD_eq_getElem?_getD, List.getD_eq_getElem?_getD, List.getElem?_map]
  cases txn.named[index]? with
  | none => rfl
  | some content =>
      have hflags : (content.bare txn.readOnly).table.flags = content.table.flags := by
        cases txn.readOnly <;> cases hown : content.isOwn <;> simp [TxnSlot.bare, hown]
      have hfresh : (content.bare txn.readOnly).fresh = content.fresh := by
        cases txn.readOnly <;> rfl
      dsimp only [Option.map_some, Option.getD_some]
      rw [hflags, hfresh]

/-- The end of a reader. -/
theorem endReader_bare (engine : Engine) (txn : Txn) (keep : Bool) :
    engine.bare.endReader txn.bare keep = (engine.endReader txn keep).bare := by
  obtain ⟨readers, hleave⟩ := engine.leaveReader_eq txn true
  have hleave' : engine.bare.leaveReader txn.bare true = engine.bare := rfl
  have hreading : engine.bare.reading.filter (·.handle ≠ txn.bare.handle) =
      (engine.reading.filter (·.handle ≠ txn.handle)).map Txn.bare := by
    rw [show engine.bare.reading = engine.reading.map Txn.bare from rfl, List.filter_map]
    rfl
  have hlength : txn.bare.named.length = txn.named.length := List.length_map _
  unfold endReader
  rw [hleave, hleave']
  dsimp only
  rw [hreading, hlength, keep_bare, discard_bare, show txn.bare.idle = txn.idle from rfl]
  cases txn.idle with
  | true => rfl
  | false => cases keep <;> rfl

/-- The end of writers, on engines that are alike. -/
theorem abortWriters_agree (handle : Nat) {txns txns' : List Txn} (h : left.bare = right.bare)
    (htxns : txns.map Txn.bare = txns'.map Txn.bare) :
    (left.abortWriters handle txns).bare = (right.abortWriters handle txns').bare := by
  induction txns generalizing left right txns' with
  | nil =>
      obtain rfl : txns' = [] := List.map_eq_nil_iff.mp htxns.symm
      exact congrArg (fun engine : Engine ↦ { engine with writers := [] }) h
  | cons txn rest ih =>
      obtain ⟨txn', rest', rfl, htxn, hrest⟩ := List.map_eq_cons_iff.mp htxns.symm
      have hhandle : txn.handle = txn'.handle := (congrArg Txn.handle htxn).symm
      have hsame : left.bare.slots = right.bare.slots := congrArg Engine.slots h
      have hslots : left.slots.discard txn.named = right.slots.discard txn'.named := by
        rw [← discard_bare, ← discard_bare right.slots, htxn]
        exact congrArg (SlotTable.discard · txn.bare.named) hsame
      unfold abortWriters
      dsimp only
      rw [hslots, ← hhandle]
      split
      · have hended : ({ left.bare with
            slots := right.slots.discard txn'.named
            writers := rest.map Txn.bare } : Engine) =
            { right.bare with
              slots := right.slots.discard txn'.named
              writers := rest'.map Txn.bare } := by
          rw [h, hrest]
        exact hended
      · refine ih ?_ hrest.symm
        exact congrArg (fun engine : Engine ↦
          { engine with slots := right.slots.discard txn'.named }) h

/-- The end of a transaction without a commit. -/
theorem abort_agree (h : left.bare = right.bare) (handle : Nat) :
    (left.abort handle).bare = (right.abort handle).bare := by
  have hbare (engine : Engine) : (engine.bare.abort handle).bare = (engine.abort handle).bare := by
    unfold abort
    rw [txn?_bare]
    cases engine.txn? handle with
    | none => exact bare_bare engine
    | some txn =>
        simp only [Option.map_some]
        rw [show txn.bare.readOnly = txn.readOnly from rfl]
        split
        · rw [endReader_bare, bare_bare]
        · refine abortWriters_agree handle (bare_bare engine) ?_
          simp [bare, Function.comp_def]
  rw [← hbare left, h, hbare right]

/-- A reset. -/
theorem reset_bare (engine : Engine) (handle : Nat) :
    engine.bare.reset handle = (engine.reset handle).bare := by
  unfold reset
  rw [txn?_bare]
  cases engine.txn? handle with
  | none => rfl
  | some txn =>
      obtain ⟨readers, hleave⟩ := engine.leaveReader_eq txn false
      have hleave' : engine.bare.leaveReader txn.bare false = engine.bare := rfl
      simp only [Option.map_some]
      rw [show txn.bare.readOnly = txn.readOnly from rfl, show txn.bare.idle = txn.idle from rfl,
        hleave, hleave']
      split
      · rfl
      dsimp only
      rw [discard_bare]
      generalize (if engine.flags.contains EnvFlags.noTls = true then txn.reader else none) = reader
      have hreader : (if engine.bare.flags.contains EnvFlags.noTls = true then txn.bare.reader
          else none) = none := ite_self none
      rw [hreader]
      exact congrArg (fun replaced : Engine ↦
        { replaced with slots := engine.slots.discard txn.named })
        (engine.bare_replace { txn with idle := true, reader := reader }).symm

/-- The renewal of a reader that needs no reader slot. -/
def renewUnseated (engine : Engine) (handle : Nat) : Answer Engine Unit :=
  match engine.txn? handle with
  | none => refuseSystem SystemText.invalidArgument engine
  | some txn =>
      if !txn.idle then refuseSystem SystemText.invalidArgument engine
      else
        (.ok (),
          engine.replace
            { txn with
              idle := false
              commit := engine.image.commit
              reader := none
              main := Txn.mainOf engine.image.snapshot
              named := engine.slots.fresh engine.known (remember [] txn.named)
              tables := engine.image.snapshot.named })

/-- The renewal of a reader that has not been refused a reader slot. -/
theorem renew_agree {thread : Nat} (h : Seated (engine.renew handle thread).1) :
    Agree (engine.bare.renewUnseated handle) (engine.renew handle thread) := by
  unfold renew at h ⊢
  unfold renewUnseated
  rw [txn?_bare]
  cases htxn : engine.txn? handle with
  | none => exact ⟨rfl, bare_bare engine⟩
  | some txn =>
      rw [htxn] at h
      simp only [Option.map_some] at h ⊢
      rw [show txn.bare.idle = txn.idle from rfl]
      split
      · exact ⟨rfl, bare_bare engine⟩
      · rename_i hidle
        rw [if_neg hidle] at h
        rcases engine.claimReader_cases thread txn.reader with
          ⟨condition, hclaim⟩ | ⟨reader, readers, hclaim⟩
        · rw [hclaim] at h
          rcases claimReader_seated hclaim with rfl | rfl
          · exact absurd rfl h.1
          · exact absurd rfl h.2
        · rw [hclaim]
          refine ⟨rfl, ?_⟩
          dsimp only
          rw [bare_replace, bare_replace, bare_bare]
          have hnamed : (engine.slots.fresh engine.known (remember [] txn.bare.named)).map
              (TxnSlot.bare txn.readOnly) =
              (engine.slots.fresh engine.known (remember [] txn.named)).map
                (TxnSlot.bare txn.readOnly) := by
            cases hreader : txn.readOnly with
            | true => rw [show txn.bare.named = txn.named from by simp [Txn.bare, hreader]]
            | false => exact fresh_bare _ _ _ _
          exact congrArg (fun named ↦ engine.bare.replace
            { txn with
              idle := false
              commit := engine.image.commit
              reader := none
              main := Txn.mainOf engine.image.snapshot
              named := named
              tables := engine.image.snapshot.named }) hnamed

/-! ## Commits -/

/-- What the innermost writer hands to its parent. -/
theorem absorb_bare (parent txn : Txn) : absorb parent.bare txn.bare = (absorb parent txn).bare := by
  have hnamed : (txn.named.map (TxnSlot.bare txn.readOnly)).mapIdx (fun index content ↦
      { content with fresh := content.fresh || (parent.bare.named.getD index {}).fresh }) =
      (txn.named.mapIdx fun index content ↦
        { content with fresh := content.fresh || (parent.named.getD index {}).fresh }).map
          (TxnSlot.bare txn.readOnly) := by
    refine List.ext_getElem? fun index ↦ ?_
    have hfresh : (parent.bare.named.getD index {}).fresh = (parent.named.getD index {}).fresh := by
      rw [show parent.bare.named = parent.named.map (TxnSlot.bare parent.readOnly) from rfl,
        List.getD_eq_getElem?_getD, List.getD_eq_getElem?_getD, List.getElem?_map]
      cases parent.named[index]? with
      | none => rfl
      | some content => cases parent.readOnly <;> rfl
    rw [List.getElem?_mapIdx, List.getElem?_map, List.getElem?_map, List.getElem?_mapIdx, hfresh]
    cases txn.named[index]? with
    | none => rfl
    | some content => cases txn.readOnly <;> rfl
  exact congrArg (fun named ↦
    { txn with
      handle := parent.handle
      changed := parent.changed || txn.changed
      reader := none
      named := named }) hnamed

/-- Recording the tables of dirty slots, which are the transaction's own. -/
theorem record_bare (slots : SlotTable) (limit : Nat) (txn : Txn) (todo : List Nat) :
    record slots limit txn.bare todo = (record slots limit txn todo).map id Txn.bare := by
  induction todo generalizing txn with
  | nil => rfl
  | cons slot rest ih =>
      have howns : txn.Owns mainSlot := fun _ _ ↦ .inl rfl
      unfold record
      rw [Txn.slot?_bare]
      cases txn.slot? slot with
      | none => exact ih txn
      | some content =>
          obtain ⟨-, -, hdirty, -⟩ := txn.bareSlot_marks slot content
          simp only [Option.map_some, hdirty, Txn.isOutdated_bare, Txn.touch_bare howns]
          split
          · exact ih txn
          rename_i hnotclean
          have hown : content.isOwn = true := by
            have hcontent : content.dirty = true := by simpa using hnotclean
            simp [TxnSlot.isOwn, hcontent]
          have htable : (txn.bareSlot slot content).table = content.table := by
            rw [Txn.bareSlot_own (.inr hown)]
          rw [htable]
          cases txn.isOutdated slots slot content with
          | true => rfl
          | false =>
              simp only [Bool.false_eq_true, if_false]
              split
              · rfl
              rcases txn.touch limit slots mainSlot with ⟨code | ⟨⟨⟩⟩, touched⟩
              · rfl
              · have hrecorded := ih
                  { touched with
                    main := { touched.main with
                      table := (touched.snapshot.store (slots.info slot).name content.table).main }
                    tables :=
                      (touched.snapshot.store (slots.info slot).name content.table).named }
                exact hrecorded

/-- Writing what a root transaction leaves to be written. -/
theorem flush_bare (engine : Engine) (txn : Txn) :
    engine.bare.flush txn.bare = (engine.flush txn).map id Txn.bare := by
  unfold flush
  rw [show txn.bare.named.length = txn.named.length from List.length_map _,
    show engine.bare.slots = engine.slots from rfl,
    show engine.bare.pageLimit = engine.pageLimit from rfl, record_bare]
  rcases record engine.slots engine.pageLimit txn
    ((List.range txn.named.length).map (· + firstSlot)) with ⟨code | ⟨⟨⟩⟩, recorded⟩
  · rfl
  · exact recorded.claim_bare engine.pageLimit _

/-- The end of a root writer whose opens are kept. -/
theorem endWriter_agree (engine : Engine) (txn : Txn) :
    (engine.bare.endWriter txn.bare).bare = (engine.endWriter txn).bare := by
  have hlength : txn.bare.named.length = txn.named.length := List.length_map _
  unfold endWriter
  rw [keep_bare, hlength]
  simp [bare, Function.comp_def]

/-- The commit of the innermost writer. -/
theorem commitWriter_agree (engine : Engine) (txn : Txn) (outer : List Txn) :
    Agree (engine.bare.commitWriter txn.bare (outer.map Txn.bare))
      (engine.commitWriter txn outer) := by
  cases outer with
  | cons parent rest =>
      rw [List.map_cons]
      unfold commitWriter
      dsimp only
      rw [show txn.bare.broken = txn.broken from rfl, absorb_bare]
      split
      · refine ⟨rfl, abort_agree ?_ txn.handle⟩
        have hparent := Txn.bare_bare { parent with broken := true }
        have hbroken : ({ parent.bare with broken := true } : Txn).bare = _ := hparent
        simp [bare, Function.comp_def, hbroken]
      · exact ⟨rfl, by simp [bare, Function.comp_def]⟩
  | nil =>
      rw [List.map_nil]
      unfold commitWriter
      dsimp only
      rw [show txn.bare.broken = txn.broken from rfl, show txn.bare.changed = txn.changed from rfl,
        flush_bare]
      split
      · exact ⟨rfl, abort_agree (bare_bare engine) txn.handle⟩
      split
      · exact ⟨rfl, engine.endWriter_agree txn⟩
      rcases engine.flush txn with ⟨code | ⟨⟨⟩⟩, flushed⟩
      · have hreplace : (engine.bare.replace flushed.bare).bare = (engine.replace flushed).bare := by
          rw [bare_replace, bare_replace, bare_bare, Txn.bare_bare]
        exact ⟨rfl, abort_agree hreplace flushed.handle⟩
      · exact ⟨rfl, (engine.publish flushed).endWriter_agree flushed⟩

/-- A commit. -/
theorem commit_agree (engine : Engine) (handle : Nat) :
    Agree (engine.bare.commit handle) (engine.commit handle) := by
  unfold commit
  rw [txn?_bare]
  cases engine.txn? handle with
  | none => exact ⟨rfl, bare_bare engine⟩
  | some txn =>
      simp only [Option.map_some]
      rw [show txn.bare.readOnly = txn.readOnly from rfl,
        show engine.bare.writers = engine.writers.map Txn.bare from rfl]
      split
      · exact ⟨rfl, by rw [endReader_bare, bare_bare]⟩
      cases engine.writers with
      | nil => exact ⟨rfl, bare_bare engine⟩
      | cons innermost outer =>
          rw [List.map_cons]
          dsimp only
          rw [show innermost.bare.handle = innermost.handle from rfl]
          split
          · exact engine.commitWriter_agree innermost outer
          · exact ⟨rfl, abort_agree (bare_bare engine) handle⟩

/-- A copy, with the tree that it leaves. -/
theorem copy_agree (h : left.bare = right.bare) {tree : Files.Tree} {path : Bytes}
    {flags : CopyFlags} {thread : Nat} (hleft : Seated (left.copy tree path flags thread).1)
    (hright : Seated (right.copy tree path flags thread).1) :
    (left.copy tree path flags thread).1 = (right.copy tree path flags thread).1 ∧
      (left.copy tree path flags thread).2.1.bare = (right.copy tree path flags thread).2.1.bare ∧
      (left.copy tree path flags thread).2.2 = (right.copy tree path flags thread).2.2 := by
  have hflags : left.bare.flags = right.bare.flags := congrArg Engine.flags h
  unfold copy at hleft hright ⊢
  rw [show right.flags = left.flags from hflags.symm] at hright ⊢
  dsimp only at hleft hright ⊢
  split
  · exact ⟨rfl, h, rfl⟩
  · rename_i location created hcreated
    rw [hcreated] at hleft hright
    have hbegun {engine : Engine} {result : Except Code Unit}
        (hresult : ∀ code after, engine.beginRead thread = (.error code, after) →
          result = .error code) (hseated : Seated result) : Seated (engine.beginRead thread).1 := by
      rcases hbegin : engine.beginRead thread with ⟨code | native, after⟩
      · rw [hresult code after hbegin] at hseated
        exact ⟨fun hcode ↦ hseated.1 (congrArg Except.error (Except.error.inj hcode)),
          fun hcode ↦ hseated.2 (congrArg Except.error (Except.error.inj hcode))⟩
      · exact ⟨fun hcode ↦ (by cases hcode), fun hcode ↦ (by cases hcode)⟩
    have hagree := (beginRead_agree (hbegun (fun code after hbegin ↦ by rw [hbegin]) hleft)).of_bare
      (beginRead_agree (hbegun (fun code after hbegin ↦ by rw [hbegin]) hright)) (by rw [h])
    clear hleft hright hbegun
    generalize left.beginRead thread = begun at hagree ⊢
    generalize right.beginRead thread = begun' at hagree ⊢
    rcases begun with ⟨code | native, after⟩ <;> rcases begun' with ⟨code' | native', after'⟩ <;>
      obtain ⟨hresult, hafter⟩ := hagree <;> cases hresult
    · exact ⟨rfl, hafter, rfl⟩
    · have hcopied : after.bare.copiedImage flags = after'.bare.copiedImage flags :=
        congrArg (fun engine : Engine ↦ engine.copiedImage flags) hafter
      exact ⟨rfl, abort_agree hafter native, congrArg
        (fun image ↦ created.place location (.file (fileOf (Files.masked 0o666) image))) hcopied⟩

end Engine

end MappedStore
