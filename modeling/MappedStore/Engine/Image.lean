import MappedStore.Engine.Table

/-!
# Snapshots and images

A snapshot is everything a transaction can read: the main table and the table of every named
database. An image is what a data file holds: a snapshot with the number of the commit that wrote
it, the pages that its trees and the list of free pages take up and the recorded size of the map.
-/

namespace MappedStore.Engine

/-- The main table, and the named tables by name. A name has a table exactly if the main table has
a database record for it. -/
structure Snapshot where
  main : Table := {}
  named : Entries Table := []
  deriving DecidableEq, Repr

namespace Snapshot

/-- The table of a named database; a name without one has an empty table. -/
def table (snapshot : Snapshot) (name : Bytes) : Table :=
  (snapshot.named.find? name).getD {}

/-- A snapshot in which a name has the given table and a record in the main table. -/
def store (snapshot : Snapshot) (name : Bytes) (table : Table) : Snapshot where
  main := snapshot.main.insert name .database
  named := snapshot.named.insert .bytewise name table

/-- A snapshot without a named database. -/
def remove (snapshot : Snapshot) (name : Bytes) : Snapshot where
  main := snapshot.main.erase name
  named := snapshot.named.erase name

/-- The pages that a snapshot occupies. -/
def pages (snapshot : Snapshot) : Nat :=
  snapshot.main.pages + total (·.2.pages) snapshot.named

end Snapshot

/-- The content of a data file. Its trees take up the pages after the two meta pages. The pages that
commits have given up are listed on pages of their own; those that the last commit has given up are
held back, for the one before it can still be gone back to. -/
structure Image where
  snapshot : Snapshot := {}
  commit : Nat := 0
  treePages : Nat := 0
  listPages : Nat := 0
  heldPages : Nat := 0
  mapSize : Nat := 1048576
  deriving DecidableEq, Repr

/-- The last page in use. -/
def Image.lastPage (image : Image) : Nat :=
  image.treePages + image.listPages + image.heldPages + 1

end MappedStore.Engine
