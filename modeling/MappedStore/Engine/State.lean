import MappedStore.Engine.Readers
import MappedStore.Engine.Write
import MappedStore.Files.Tree

/-!
# The engine of an open environment

The engine holds the last committed image, the table of database slots, the reader slots, and the
transactions in progress. Write transactions form one chain: the root and its nested descendants,
kept with the innermost first; only the innermost may be used. A transaction is addressed by the
handle that its begin returned, and a handle is never given out twice.
-/

namespace MappedStore

open Engine

/-- The engine behind an open environment. -/
structure Engine where
  flags : EnvFlags
  file : Files.Location := []
  mapSize : Nat
  maxSlots : Nat
  capacity : Nat
  image : Image := {}
  slots : SlotTable := []
  known : Nat := 0
  readers : ReaderTable := {}
  writers : List Txn := []
  reading : List Txn := []
  memory : List (Option Table) := []
  nextHandle : Nat := 1
  deriving DecidableEq, Repr

namespace Engine

/-- An engine that has opened nothing. -/
def unopened : Engine where
  flags := .empty
  mapSize := 0
  maxSlots := 0
  capacity := 0

/-- The number of whole pages in the map. -/
def pageLimit (engine : Engine) : Nat := engine.mapSize / pageSize

/-- The transaction with a handle. -/
def txn? (engine : Engine) (handle : Nat) : Option Txn :=
  (engine.writers ++ engine.reading).find? (·.handle = handle)

/-- The engine with a transaction replaced by another of the same handle. -/
def replace (engine : Engine) (txn : Txn) : Engine :=
  { engine with
    writers := engine.writers.map fun other ↦ if other.handle = txn.handle then txn else other
    reading := engine.reading.map fun other ↦ if other.handle = txn.handle then txn else other }

/-- Whether a transaction cannot be used: it is broken, or it has a nested one. -/
def isBlocked (engine : Engine) (txn : Txn) : Bool :=
  txn.broken || (!txn.readOnly && (engine.writers.head?.map (·.handle)) != some txn.handle)

/-- Run an operation on the transaction with a handle. -/
def onTxn {α : Type} (engine : Engine) (handle : Nat)
    (operation : Txn → Answer Txn α) : Answer Engine α :=
  match engine.txn? handle with
  | none => refuseSystem SystemText.invalidArgument engine
  | some txn =>
      let (result, txn) := operation txn
      (result, engine.replace txn)

/-! ## Data -/

/-- Read the value of a key. -/
def get (engine : Engine) (handle slot : Nat) (key : Bytes) : Answer Engine Bytes :=
  engine.onTxn handle fun txn ↦ txn.get engine.slots (engine.isBlocked txn) slot key

/-- The figures of the table behind a slot. -/
def statOf (engine : Engine) (handle slot : Nat) : Answer Engine Stat :=
  engine.onTxn handle fun txn ↦ txn.stat engine.slots (engine.isBlocked txn) slot

/-- Store a value under a key. -/
def put (engine : Engine) (handle slot : Nat) (key : Bytes) (payload : Payload)
    (flags : WriteFlags) : Answer Engine Unit :=
  engine.onTxn handle fun txn ↦
    txn.put engine.pageLimit engine.slots (engine.isBlocked txn) slot key payload flags

/-- Write over a reserved buffer. -/
def fill (engine : Engine) (handle slot : Nat) (key data : Bytes) : Engine :=
  (engine.onTxn handle fun txn ↦ (.ok (), txn.fill slot key data)).2

/-- Remove a key or one of its values. -/
def del (engine : Engine) (handle slot : Nat) (key : Bytes) (item : Option Bytes) :
    Answer Engine Unit :=
  engine.onTxn handle fun txn ↦
    txn.del engine.pageLimit engine.slots (engine.isBlocked txn) slot key item

/-! ## The environment as a whole -/

/-- Facts about the map and the reader slots. -/
structure Info where
  mapSize : Nat
  lastPage : Nat
  lastCommit : Nat
  maxReaders : Nat
  numReaders : Nat
  deriving DecidableEq, Repr, Inhabited

/-- Facts about the map and the reader slots. -/
def info (engine : Engine) : Info where
  mapSize := engine.mapSize
  lastPage := engine.image.lastPage
  lastCommit := engine.image.commit
  maxReaders := engine.capacity
  numReaders := engine.readers.slots.length

/-- The figures of the committed main table. -/
def stat (engine : Engine) : Stat := engine.image.snapshot.main.stat

/-- Flush to disk, which a read-only environment refuses. -/
def sync (engine : Engine) : Code :=
  if engine.flags.contains EnvFlags.readOnly then .system SystemText.denied else 0

end Engine

end MappedStore
