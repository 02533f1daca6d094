import MappedStore.Engine.Txn

/-!
# Writes

Storing and removing values through a transaction. A write first checks its arguments, then finds
what lies under its key, then claims the pages for the change, and only then changes the table, so
a refused write leaves all values as they were.
-/

namespace MappedStore.Engine

/-- What a write stores: given bytes, or a buffer of a given length to be filled in later. -/
inductive Payload where
  | bytes (data : Bytes)
  | reserved (length : Nat)
  deriving DecidableEq, Repr

namespace Payload

/-- The number of bytes to be stored. -/
def size : Payload → Nat
  | bytes data => data.length
  | reserved length => length

/-- The bytes to be stored; a reserved buffer starts out as zeros. -/
def content : Payload → Bytes
  | bytes data => data
  | reserved length => List.replicate length 0

end Payload

namespace Txn

/-! ## Storing -/

/-- Put a value among the sorted values of a key. -/
def insertItem (order : Order) (item : Bytes) : List Bytes → List Bytes
  | [] => [item]
  | other :: rest =>
      if order.lt item other then item :: other :: rest
      else other :: insertItem order item rest

/-- The values of a key after one more is added. A value that is there already is refused where
only new ones are wanted, and an appended value must come after all others. -/
def addItem (flags : WriteFlags) (order : Order) (items : List Bytes) (item : Bytes) :
    Except Condition (List Bytes) :=
  if item ∈ items then
    if flags.contains WriteFlags.noDupData || flags.contains WriteFlags.appendDup then
      .error .keyExist
    else .ok items
  else if flags.contains WriteFlags.appendDup && items.any (order.lt item ·) then .error .keyExist
  else .ok (insertItem order item items)

/-- Replace the single value of a key. A run of the same transaction that is large enough is
reused, and so is the place of a value of the same size. -/
def overwrite (txn : Txn) (limit slot : Nat) (key : Bytes) (payload : Payload)
    (items : List Bytes) (run : Run) : Answer Txn Unit :=
  let inPlace :=
    if run.pages = 0 then payload.size == (items.headD []).length
    else overflowRun payload.size ≤ run.pages && run.commit == txn.commit
  if inPlace then
    (.ok (), txn.modifyTable slot (·.insert key (.values [payload.content] run)))
  else
    match txn.claimEntry limit key payload.size with
    | (.error code, txn) => (.error code, txn)
    | (.ok run, txn) =>
        (.ok (), txn.modifyTable slot (·.insert key (.values [payload.content] run)))

/-- Give a key that has no record its first value. -/
def insertNew (txn : Txn) (limit slot : Nat) (key : Bytes) (payload : Payload) :
    Answer Txn Unit :=
  match txn.claimEntry limit key payload.size with
  | (.error code, txn) => (.error code, txn)
  | (.ok run, txn) =>
      (.ok (), txn.modifyTable slot (·.insert key (.values [payload.content] run)))

/-- Store a value under a key whose record is known, in a table prepared for the change. -/
def store (txn : Txn) (limit slot : Nat) (table : Table) (key : Bytes) (payload : Payload)
    (flags : WriteFlags) (found : Option Record) : Answer Txn Unit :=
  match found with
  | none => txn.insertNew limit slot key payload
  | some .database => refuse .incompatible txn
  | some (.values items run) =>
      if table.hasDuplicates then
        match addItem flags (.ofValues table.flags) items payload.content with
        | .error condition => refuse condition txn
        | .ok extended =>
            if extended = items then (.ok (), txn)
            else
              match txn.claimEntry limit key payload.size with
              | (.error code, txn) => (.error code, txn)
              | (.ok _, txn) =>
                  (.ok (), txn.modifyTable slot (·.insert key (.values extended run)))
      else txn.overwrite limit slot key payload items run

/-- The record that a write meets under its key. An appended key must come after all others, and a
key with a record is refused where only new ones are wanted. -/
def meet (table : Table) (key : Bytes) (flags : WriteFlags) : Except Condition (Option Record) :=
  if flags.contains WriteFlags.append then
    if table.isBeyond key then .ok none else .error .keyExist
  else
    match table.find? key with
    | some record =>
        if flags.contains WriteFlags.noOverwrite then .error .keyExist else .ok (some record)
    | none => .ok none

/-- Give an empty table its first page. -/
def newRoot (txn : Txn) (limit slot : Nat) : Answer Txn Unit :=
  match txn.claim limit 1 with
  | (.error code, txn) => (.error code, txn)
  | (.ok (), txn) =>
      (.ok (),
        { txn.modifySlot slot ({ · with dirty := true, touched := true }) with changed := true })

/-- Give an empty table its first entry. -/
def insertFirst (txn : Txn) (limit slot : Nat) (key : Bytes) (payload : Payload) :
    Answer Txn Unit :=
  match txn.newRoot limit slot with
  | (.error code, txn) => (.error code, txn)
  | (.ok (), txn) => txn.insertNew limit slot key payload

/-- The largest value that a table accepts. -/
def maxItemSize (table : Table) : Nat :=
  if table.hasDuplicates then maxKeySize else maxValueSize

/-- Store a value under a key. A slot whose table cannot be read still shows the table that was read
into its place before; if that one was empty the value becomes its first entry. -/
def put (txn : Txn) (limit : Nat) (slots : SlotTable) (blocked : Bool) (slot : Nat) (key : Bytes)
    (payload : Payload) (flags : WriteFlags) : Answer Txn Unit :=
  match txn.usable? slot with
  | none => refuseSystem SystemText.invalidArgument txn
  | some content =>
      if !WriteFlags.accepted.contains flags then refuseSystem SystemText.invalidArgument txn
      else if txn.readOnly then refuseSystem SystemText.denied txn
      else if blocked then refuse .badTxn txn
      else if key.isEmpty || key.length > maxKeySize || payload.size > maxItemSize content.table
      then refuse .badValSize (txn.tryLoad slots slot content)
      else
        match txn.load slots slot content with
        | .error condition =>
            if content.table.isEmpty && !content.unread then
              txn.insertFirst limit slot key payload
            else refuse condition txn
        | .ok content =>
            let txn := txn.setSlot slot content
            if content.table.isEmpty then txn.insertFirst limit slot key payload
            else
              match meet content.table key flags with
              | .error condition => refuse condition txn
              | .ok found =>
                  match txn.touch limit slots slot with
                  | (.error code, txn) => (.error code, txn)
                  | (.ok (), txn) =>
                      txn.store limit slot content.table key payload flags found

/-- Write over the bytes of a buffer that was reserved under a key. -/
def fill (txn : Txn) (slot : Nat) (key data : Bytes) : Txn :=
  txn.modifyTable slot fun table ↦
    match table.find? key with
    | some (.values (item :: rest) run) =>
        if item.length = data.length then table.insert key (.values (data :: rest) run) else table
    | _ => table

/-! ## Removing -/

/-- Remove a key, or one of its values where keys have several. -/
def del (txn : Txn) (limit : Nat) (slots : SlotTable) (blocked : Bool) (slot : Nat) (key : Bytes)
    (item : Option Bytes) : Answer Txn Unit :=
  match txn.usable? slot with
  | none => refuseSystem SystemText.invalidArgument txn
  | some content =>
      if txn.readOnly then refuseSystem SystemText.denied txn
      else if blocked then refuse .badTxn txn
      else if key.isEmpty then refuse .badValSize (txn.tryLoad slots slot content)
      else
        match txn.load slots slot content with
        | .error condition => refuse condition txn
        | .ok content =>
            let txn := txn.setSlot slot content
            let item := if content.table.hasDuplicates then item else none
            match content.table.find? key with
            | none => refuse .notFound txn
            | some .database =>
                match txn.touch limit slots slot with
                | (.error code, txn) => (.error code, txn)
                | (.ok (), txn) => refuse .incompatible { txn with broken := true }
            | some (.values items run) =>
                if item.any (· ∉ items) then refuse .notFound txn
                else
                  match txn.touch limit slots slot with
                  | (.error code, txn) => (.error code, txn)
                  | (.ok (), txn) =>
                      let left := item.elim [] items.erase
                      (.ok (), txn.modifyTable slot fun table ↦
                        if left.isEmpty then table.erase key
                        else table.insert key (.values left run))

end Txn

end MappedStore.Engine
