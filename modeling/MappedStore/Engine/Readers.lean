/-!
# Reader slots

A read transaction is announced in a table of reader slots of fixed capacity. By default a slot
belongs to a thread, which can have one reading transaction at a time; otherwise it belongs to the
transaction. The table remembers how many slots were ever taken.
-/

namespace MappedStore.Engine

/-- A reader slot: whether somebody owns it and whether a transaction reads through it. -/
structure ReaderSlot where
  held : Bool := false
  active : Bool := false
  deriving DecidableEq, Repr

/-- Why no reader slot could be had. -/
inductive ReaderRefusal where
  | inUse
  | full
  deriving DecidableEq, Repr

/-- The reader slots taken so far, and the slots that threads own. -/
structure ReaderTable where
  slots : List ReaderSlot := []
  threads : List (Nat × Nat) := []
  deriving DecidableEq, Repr

namespace ReaderTable

/-- The lowest slot that nobody owns. -/
def free? (table : ReaderTable) (capacity : Nat) : Option Nat :=
  match table.slots.findIdx? (!·.held) with
  | some index => some index
  | none => if table.slots.length < capacity then some table.slots.length else none

/-- Put a slot at an index, which may be one past the last. -/
def put (table : ReaderTable) (index : Nat) (slot : ReaderSlot) : ReaderTable :=
  { table with
    slots :=
      if index < table.slots.length then table.slots.set index slot else table.slots ++ [slot] }

/-- Take a slot for reading. `owned` is the slot that the transaction has kept, and `perThread`
says whether slots belong to threads. -/
def claim (table : ReaderTable) (capacity : Nat) (perThread : Bool) (thread : Nat)
    (owned : Option Nat) : Except ReaderRefusal (Nat × ReaderTable) :=
  match owned.or (if perThread then table.threads.lookup thread else none) with
  | some index =>
      if (table.slots.getD index {}).active then .error .inUse
      else .ok (index, table.put index ⟨true, true⟩)
  | none =>
      match table.free? capacity with
      | none => .error .full
      | some index =>
          let table := table.put index ⟨true, true⟩
          .ok (index,
            if perThread then { table with threads := (thread, index) :: table.threads }
            else table)

/-- Stop reading through a slot but keep it. -/
def rest (table : ReaderTable) (index : Nat) : ReaderTable := table.put index ⟨true, false⟩

/-- Give up a slot. -/
def release (table : ReaderTable) (index : Nat) : ReaderTable := table.put index ⟨false, false⟩

/-- Give up the slot of a thread that ends. -/
def endThread (table : ReaderTable) (thread : Nat) : ReaderTable :=
  match table.threads.lookup thread with
  | none => table
  | some index =>
      { table.release index with threads := table.threads.filter (·.1 ≠ thread) }

end ReaderTable

end MappedStore.Engine
