import MappedStore.Engine.Slots
import MappedStore.Error.Condition
import MappedStore.Error.SystemText

/-!
# Engine transactions

A transaction holds the main table and the named tables as it sees them, and the slots through
which it can reach them. A slot that was known at the begin is read from the main table at its
first use. A write claims pages at the end of the file; when the map has no room the transaction
is broken and can only be ended. Operations give a result and the transaction they leave.
-/

namespace MappedStore.Engine

/-- A transaction of the engine. `commit` numbers the commit that it reads, or would write;
`idle` marks a reset reader, which sees nothing until it is renewed. -/
structure Txn where
  handle : Nat
  readOnly : Bool
  idle : Bool := false
  broken : Bool := false
  changed : Bool := false
  commit : Nat := 0
  reader : Option Nat := none
  main : TxnSlot := {}
  named : List TxnSlot := []
  tables : Entries Table := []
  nextPage : Nat := 2
  written : Nat := 0
  deriving DecidableEq, Repr

/-- The answer of an operation together with the state it leaves. -/
abbrev Answer (σ α : Type) := Except Code α × σ

/-- Refuse with a named condition. -/
def refuse {σ α : Type} (condition : Condition) (state : σ) : Answer σ α :=
  (.error condition.code, state)

/-- Refuse with a system error. -/
def refuseSystem {σ α : Type} (number : Nat) (state : σ) : Answer σ α :=
  (.error (.system number), state)

namespace Txn

/-- What a transaction holds of a slot. -/
def slot? (txn : Txn) : Nat → Option TxnSlot
  | 0 => none
  | 1 => some txn.main
  | index + 2 => txn.named[index]?

/-- A slot that can be used now. -/
def usable? (txn : Txn) (slot : Nat) : Option TxnSlot :=
  if txn.idle then none else (txn.slot? slot).filter (·.usable)

/-- Replace what a transaction holds of a slot. -/
def setSlot (txn : Txn) (slot : Nat) (content : TxnSlot) : Txn :=
  match slot with
  | 0 => txn
  | 1 => { txn with main := content }
  | index + 2 => { txn with named := txn.named.set index content }

/-- Change what a transaction holds of a slot. -/
def modifySlot (txn : Txn) (slot : Nat) (change : TxnSlot → TxnSlot) : Txn :=
  match txn.slot? slot with
  | some content => txn.setSlot slot (change content)
  | none => txn

/-- Change the table behind a slot. -/
def modifyTable (txn : Txn) (slot : Nat) (change : Table → Table) : Txn :=
  txn.modifySlot slot fun content ↦ { content with table := change content.table }

/-- Everything that a transaction can read, apart from the tables it has yet to record. -/
def snapshot (txn : Txn) : Snapshot := ⟨txn.main.table, txn.tables⟩

/-- The slots of a transaction that starts from a snapshot. -/
def mainOf (snapshot : Snapshot) : TxnSlot := { usable := true, table := snapshot.main }

/-- Whether the occupant of a slot changed since a write transaction learnt of it. Read
transactions follow the engine's own counters and never notice. -/
def isOutdated (txn : Txn) (slots : SlotTable) (slot : Nat) (content : TxnSlot) : Bool :=
  !txn.readOnly && content.sequence != (slots.info slot).sequence

/-- A slot with its table read, by the name that occupies it now. -/
def load (txn : Txn) (slots : SlotTable) (slot : Nat) (content : TxnSlot) :
    Except Condition TxnSlot :=
  if !content.stale then .ok content
  else if txn.isOutdated slots slot content then .error .badDbi
  else
    match txn.main.table.find? (slots.info slot).name with
    | none => .error .notFound
    | some (.values ..) => .error .incompatible
    | some .database =>
        let table := txn.snapshot.table (slots.info slot).name
        if table.flags ≠ content.table.flags then .error .incompatible
        else .ok { content with stale := false, unread := false, table := table }

/-- Read the table of a slot if that is possible. -/
def tryLoad (txn : Txn) (slots : SlotTable) (slot : Nat) (content : TxnSlot) : Txn :=
  match txn.load slots slot content with
  | .ok content => txn.setSlot slot content
  | .error _ => txn

/-! ## Pages -/

/-- Claim pages at the end of the file. The map holds `limit` pages. -/
def claim (txn : Txn) (limit pages : Nat) : Answer Txn Unit :=
  if pages = 0 then (.ok (), txn)
  else if txn.nextPage + pages ≥ limit then refuse .mapFull { txn with broken := true }
  else (.ok (), { txn with nextPage := txn.nextPage + pages })

/-- Claim a page for the first change of a tree. -/
def touchTree (txn : Txn) (limit slot : Nat) : Answer Txn Unit :=
  match txn.slot? slot with
  | none => (.ok (), txn)
  | some content =>
      if content.touched then (.ok (), { txn with changed := true })
      else
        match txn.claim limit 1 with
        | (.error code, txn) => (.error code, txn)
        | (.ok (), txn) =>
            (.ok (), { txn.modifySlot slot ({ · with touched := true }) with changed := true })

/-- Prepare a slot for a change. The first change of a named table also changes the main one,
where its record lies. -/
def touch (txn : Txn) (limit : Nat) (slots : SlotTable) (slot : Nat) : Answer Txn Unit :=
  match txn.slot? slot with
  | none => (.ok (), txn)
  | some content =>
      if slot = mainSlot || content.dirty then txn.touchTree limit slot
      else if txn.isOutdated slots slot content then refuse .badDbi txn
      else
        match txn.touchTree limit mainSlot with
        | (.error code, txn) => (.error code, txn)
        | (.ok (), txn) =>
            (txn.modifySlot slot ({ · with dirty := true })).touchTree limit slot

/-- Claim the pages for a new entry: a run of its own if it is long, and otherwise its share of
half-filled tree pages. -/
def claimEntry (txn : Txn) (limit : Nat) (key : Bytes) (size : Nat) : Answer Txn Run :=
  if isLong key size then
    match txn.claim limit (overflowRun size) with
    | (.error code, txn) => (.error code, txn)
    | (.ok (), txn) => (.ok ⟨overflowRun size, txn.commit⟩, txn)
  else
    let written := txn.written + 8 + key.length + size
    match txn.claim limit (written / (pageSize / 2) - txn.written / (pageSize / 2)) with
    | (.error code, txn) => (.error code, txn)
    | (.ok (), txn) => (.ok {}, { txn with written := written })

/-! ## Reading -/

/-- Read the value of a key. -/
def get (txn : Txn) (slots : SlotTable) (blocked : Bool) (slot : Nat) (key : Bytes) :
    Answer Txn Bytes :=
  match txn.usable? slot with
  | none => refuseSystem SystemText.invalidArgument txn
  | some content =>
      if blocked then refuse .badTxn txn
      else
        match txn.load slots slot content with
        | .error condition => refuse (if key.isEmpty then .badValSize else condition) txn
        | .ok content =>
            let txn := txn.setSlot slot content
            if key.isEmpty then refuse .badValSize txn
            else
              match content.table.find? key with
              | some record => (.ok record.read, txn)
              | none => refuse .notFound txn

/-- The figures of the table behind a slot. A table that cannot be read leaves the figures of what
the slot held before. -/
def stat (txn : Txn) (slots : SlotTable) (blocked : Bool) (slot : Nat) : Answer Txn Stat :=
  match txn.usable? slot with
  | none => refuseSystem SystemText.invalidArgument txn
  | some content =>
      if blocked then refuse .badTxn txn
      else
        match txn.load slots slot content with
        | .error _ => (.ok content.table.stat, txn)
        | .ok content => (.ok content.table.stat, txn.setSlot slot content)

end Txn

end MappedStore.Engine
