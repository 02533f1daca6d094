import MappedStore.Engine.State

/-!
# The catalog of databases

The main table records the named databases, and slots stand for those that are open. An open finds
the slot of a name or gives it the lowest free one, and creates the record of a new database on
request. A drop empties a database or removes its record, and then its slot is free at once.
-/

namespace MappedStore.Engine

/-! ## Opening -/

/-- The slots that a transaction looks through for a name: the position of the name, if it is
there, and the first free position. -/
def searchSlots (slots : SlotTable) (count : Nat) (name : Bytes) : Option Nat × Option Nat :=
  let infos := (List.range count).map fun index ↦ slots.getD index {}
  (infos.findIdx? fun info ↦ !info.isFree && info.name = name, infos.findIdx? (·.isFree))

/-- Put a slot at a position of a transaction, which may be one past its last. -/
def placeSlot (named : List TxnSlot) (index : Nat) (content : TxnSlot) : List TxnSlot :=
  if index < named.length then named.set index content else named ++ [content]

/-- Let a name occupy a position and give the transaction its table. -/
def occupy (engine : Engine) (txn : Txn) (index : Nat) (name : Bytes) (table : Table)
    (created : Bool) : Answer Engine Nat :=
  let slots := engine.slots.updateAt
    (fun info ↦ { info with name := name, sequence := info.sequence + 1 }) index
  let content : TxnSlot :=
    { usable := true
      fresh := true
      dirty := created
      sequence := (slots.getD index {}).sequence
      table := table }
  (.ok (index + firstSlot),
    { engine.replace { txn with named := placeSlot txn.named index content } with slots := slots })

/-- Add the record of a new, empty database to the main table. -/
def createRecord (engine : Engine) (txn : Txn) (name : Bytes) (flags : DbFlags) :
    Answer Txn Table :=
  let table : Table := { flags := flags.persistent }
  if txn.readOnly then refuseSystem SystemText.denied txn
  else if name.length > maxKeySize then refuse .badValSize txn
  else
    let prepared :=
      if txn.main.table.isEmpty then txn.newRoot engine.pageLimit mainSlot
      else txn.touch engine.pageLimit engine.slots mainSlot
    match prepared with
    | (.error code, txn) => (.error code, txn)
    | (.ok (), txn) =>
        (.ok table,
          { txn with
            main := { txn.main with table := txn.main.table.insert name .database }
            tables := txn.tables.insert .bytewise name table })

/-- Open the main database, which takes on the flags asked for. -/
def openMain (engine : Engine) (txn : Txn) (flags : DbFlags) : Answer Engine Nat :=
  let wanted := txn.main.table.flags.union flags.persistent
  if wanted = txn.main.table.flags then (.ok mainSlot, engine)
  else
    (.ok mainSlot,
      engine.replace
        { txn with
          main := { txn.main with table := { txn.main.table with flags := wanted } }
          changed := true })

/-- Open a named database: at its own slot if the name occupies one that the transaction can see,
and otherwise at the lowest free slot. -/
def openNamed (engine : Engine) (txn : Txn) (name : Bytes) (flags : DbFlags) : Answer Engine Nat :=
  match searchSlots engine.slots txn.named.length name with
  | (some index, _) => (.ok (index + firstSlot), engine)
  | (none, unused) =>
      let creating := flags.contains DbFlags.create
      if unused.isNone && txn.named.length + firstSlot ≥ engine.maxSlots then
        refuse .dbsFull engine
      else if txn.main.table.flags.intersects (DbFlags.dupSort.union DbFlags.integerKey) then
        refuse (if creating then .incompatible else .notFound) engine
      else if name.isEmpty then refuse .badValSize engine
      else
        let index := unused.getD txn.named.length
        match txn.main.table.find? name with
        | some .database =>
            engine.occupy txn index name (txn.snapshot.table name) false
        | some (.values ..) => refuse .incompatible engine
        | none =>
            if !creating then refuse .notFound engine
            else
              match engine.createRecord txn name flags with
              | (.error code, txn) => (.error code, engine.replace txn)
              | (.ok table, txn) => engine.occupy txn index name table true

/-- Open a database through a transaction; no name means the main one. -/
def openDatabase (engine : Engine) (handle : Nat) (name : Option Bytes) (flags : DbFlags) :
    Answer Engine Nat :=
  match engine.txn? handle with
  | none => refuseSystem SystemText.invalidArgument engine
  | some txn =>
      if !flags.isValid then refuseSystem SystemText.invalidArgument engine
      else if engine.isBlocked txn then refuse .badTxn engine
      else
        match name with
        | none => engine.openMain txn flags
        | some name => engine.openNamed txn name flags

/-! ## Dropping -/

/-- Empty the table behind a slot. -/
def clearSlot (engine : Engine) (txn : Txn) (slot : Nat) : Answer Engine Unit :=
  let txn := txn.modifySlot slot fun content ↦
    { content with dirty := true, table := content.table.clear }
  (.ok (), engine.replace { txn with changed := true })

/-- Remove the record of the named database behind a slot and free the slot at once. -/
def dropSlot (engine : Engine) (txn : Txn) (slot : Nat) : Answer Engine Unit :=
  let name := (engine.slots.info slot).name
  let broken (txn : Txn) := engine.replace { txn with broken := true }
  if name.isEmpty then refuse .badValSize (broken txn)
  else
    match txn.main.table.find? name with
    | none => refuse .notFound (broken txn)
    | some record =>
        match txn.touch engine.pageLimit engine.slots mainSlot with
        | (.error code, txn) => (.error code, broken txn)
        | (.ok (), txn) =>
            if record ≠ .database then refuse .incompatible (broken txn)
            else
              let txn := txn.modifySlot slot fun content ↦
                { content with usable := false, stale := true, fresh := false, dirty := false }
              let txn :=
                { txn with
                  main := { txn.main with table := txn.main.table.erase name }
                  tables := txn.tables.erase name }
              (.ok (),
                { engine.replace txn with slots := engine.slots.update SlotInfo.closed slot })

/-- Empty a database, and with `delete` remove a named one. -/
def drop (engine : Engine) (handle slot : Nat) (delete : Bool) : Answer Engine Unit :=
  match engine.txn? handle with
  | none => refuseSystem SystemText.invalidArgument engine
  | some txn =>
      match txn.usable? slot with
      | none => refuseSystem SystemText.invalidArgument engine
      | some content =>
          if txn.readOnly then refuseSystem SystemText.denied engine
          else if txn.isOutdated engine.slots slot content then refuse .badDbi engine
          else if engine.isBlocked txn then refuse .badTxn engine
          else
            match txn.load engine.slots slot content with
            | .error .incompatible => refuse .incompatible engine
            | .error _ | .ok _ =>
                let txn := txn.tryLoad engine.slots slot content
                if delete && slot ≠ mainSlot then engine.dropSlot txn slot
                else engine.clearSlot txn slot

end MappedStore.Engine
