import MappedStore.Engine.Entries

/-!
# Tables

A table is the content of one database: its stored flags and its entries. An entry of a key is
one value, the sorted values of a key that has several, or, in the main database, the record of a
named one. A long value does not fit a tree page and occupies a run of overflow pages; the run
remembers the commit that wrote it, because a transaction may reuse its own runs in place.
-/

namespace MappedStore.Engine

/-- The bytes of a page. -/
def pageSize : Nat := 4096

/-- The longest key. -/
def maxKeySize : Nat := 511

/-- The longest value of a database that keeps one value per key. -/
def maxValueSize : Nat := 4294967295

/-- The most bytes that an entry takes inside a tree page. -/
def maxNodeSize : Nat := 2038

/-- The sum of a measure over a list. -/
def total {α : Type} (measure : α → Nat) (items : List α) : Nat :=
  items.foldr (fun item rest ↦ measure item + rest) 0

/-- A run of overflow pages and the number of the commit that wrote it. -/
structure Run where
  pages : Nat := 0
  commit : Nat := 0
  deriving DecidableEq, Repr

/-- What a key of a table leads to. -/
inductive Record where
  | values (items : List Bytes) (run : Run)
  | database
  deriving DecidableEq, Repr

namespace Record

/-- How many entries a record counts for. -/
def size : Record → Nat
  | values items _ => items.length
  | database => 1

/-- The bytes that a read of the record gives: the first value, or the fixed-size record of a
named database. -/
def read : Record → Bytes
  | values items _ => items.headD []
  | database => List.replicate 48 0

/-- The pages outside the tree that a record occupies. -/
def overflowPages : Record → Nat
  | values _ run => run.pages
  | database => 0

/-- The bytes that a record takes inside the tree. -/
def nodeBytes : Record → Nat
  | values items run => if run.pages = 0 then total (·.length + 8) items else 16
  | database => 56

end Record

/-- The content of a database. -/
structure Table where
  flags : DbFlags := .empty
  entries : Entries Record := []
  deriving DecidableEq, Repr

namespace Table

/-- Whether keys may have several values. -/
def hasDuplicates (table : Table) : Bool := table.flags.contains DbFlags.dupSort

/-- The record of a key. -/
def find? (table : Table) (key : Bytes) : Option Record := table.entries.find? key

/-- A table in which a key leads to the given record. -/
def insert (table : Table) (key : Bytes) (record : Record) : Table :=
  { table with entries := table.entries.insert (.ofKeys table.flags) key record }

/-- A table without a key. -/
def erase (table : Table) (key : Bytes) : Table :=
  { table with entries := table.entries.erase key }

/-- A table without entries. -/
def clear (table : Table) : Table := { table with entries := [] }

/-- Whether there are no entries. -/
def isEmpty (table : Table) : Bool := table.entries.isEmpty

/-- The number of values, named databases included. -/
def size (table : Table) : Nat := total (·.2.size) table.entries

/-- The pages outside the tree. -/
def overflowPages (table : Table) : Nat := total (·.2.overflowPages) table.entries

/-- The pages that a table occupies: the tree, whose pages are half full, and the overflow
runs. -/
def pages (table : Table) : Nat :=
  if table.isEmpty then 0
  else
    1 + total (fun entry ↦ entry.1.length + entry.2.nodeBytes) table.entries / (pageSize / 2)
      + table.overflowPages

/-- Whether a key comes after every key of the table. -/
def isBeyond (table : Table) (key : Bytes) : Bool :=
  match table.entries.lastKey? with
  | some last => (Order.ofKeys table.flags).lt last key
  | none => true

end Table

/-- The figures of a table. A tree that fits one page has depth one and one leaf. -/
structure Stat where
  pageSize : Nat
  depth : Nat
  branchPages : Nat
  leafPages : Nat
  overflowPages : Nat
  entries : Nat
  deriving DecidableEq, Repr, Inhabited

/-- The figures of a table. -/
def Table.stat (table : Table) : Stat where
  pageSize := Engine.pageSize
  depth := if table.isEmpty then 0 else 1
  branchPages := 0
  leafPages := if table.isEmpty then 0 else 1
  overflowPages := table.overflowPages
  entries := table.size

/-- The overflow pages for a value of the given size. -/
def overflowRun (size : Nat) : Nat := (15 + size) / pageSize + 1

/-- Whether a key and a value of the given size do not fit a tree page together. -/
def isLong (key : Bytes) (size : Nat) : Bool := 8 + key.length + size > maxNodeSize

end MappedStore.Engine
