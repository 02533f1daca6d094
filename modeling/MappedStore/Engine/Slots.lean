import MappedStore.Engine.Image

/-!
# Database slots

Handles name databases by slot numbers. Slot 1 is the main database, and named databases take the
slots from 2 on. The engine keeps one table of slots for all transactions: the name that occupies
a slot, whether a committed open has made it known to later transactions, and a counter that
moves whenever the occupant changes. A transaction keeps its own record of the slots it can use.
-/

namespace MappedStore.Engine

/-- The slot of the main database. -/
def mainSlot : Nat := 1

/-- The first slot of a named database. -/
def firstSlot : Nat := 2

/-- What the engine knows about the occupant of a slot. An empty name marks a free slot. -/
structure SlotInfo where
  name : Bytes := []
  flags : DbFlags := .empty
  known : Bool := false
  sequence : Nat := 0
  deriving DecidableEq, Repr

namespace SlotInfo

/-- Whether no name occupies the slot. -/
def isFree (info : SlotInfo) : Bool := info.name.isEmpty

/-- The slot after its occupant has been closed. -/
def closed (info : SlotInfo) : SlotInfo :=
  if info.isFree then info else { sequence := info.sequence + 1 }

end SlotInfo

/-- The slots of named databases; position `index` describes slot `index + 2`. -/
abbrev SlotTable := List SlotInfo

namespace SlotTable

/-- What is known about a slot. -/
def info (slots : SlotTable) : Nat → SlotInfo
  | 0 | 1 => {}
  | index + 2 => slots.getD index {}

/-- Change the description at a position, filling up with free slots before it. -/
def updateAt (change : SlotInfo → SlotInfo) : SlotTable → Nat → SlotTable
  | [], 0 => [change {}]
  | [], index + 1 => {} :: updateAt change [] index
  | info :: rest, 0 => change info :: rest
  | info :: rest, index + 1 => info :: updateAt change rest index

/-- Change the description of a slot. -/
def update (slots : SlotTable) (change : SlotInfo → SlotInfo) : Nat → SlotTable
  | 0 | 1 => slots
  | index + 2 => slots.updateAt change index

/-- A changed position holds the changed description. -/
theorem getD_updateAt_self (change : SlotInfo → SlotInfo) (slots : SlotTable) (index : Nat) :
    (slots.updateAt change index).getD index {} = change (slots.getD index {}) := by
  induction index generalizing slots with
  | zero => cases slots <;> simp [updateAt]
  | succ index ih =>
      cases slots with
      | nil => simpa [updateAt] using ih []
      | cons info rest => simpa [updateAt] using ih rest

/-- A change leaves the other positions as they were. -/
theorem getD_updateAt_of_ne (change : SlotInfo → SlotInfo) (slots : SlotTable) {index other : Nat}
    (hne : other ≠ index) : (slots.updateAt change index).getD other {} = slots.getD other {} := by
  induction index generalizing slots other with
  | zero =>
      cases other with
      | zero => exact absurd rfl hne
      | succ other => cases slots <;> simp [updateAt]
  | succ index ih =>
      cases other with
      | zero => cases slots <;> simp [updateAt]
      | succ other =>
          have hne' : other ≠ index := fun h ↦ hne (by rw [h])
          cases slots with
          | nil => simpa [updateAt] using ih [] hne'
          | cons info rest => simpa [updateAt] using ih rest hne'

/-- A changed slot is described by the changed description. -/
theorem info_update_self (slots : SlotTable) (change : SlotInfo → SlotInfo) (index : Nat) :
    (slots.update change (index + 2)).info (index + 2) = change (slots.info (index + 2)) :=
  getD_updateAt_self change slots index

/-- A change leaves the other slots as they were. -/
theorem info_update_of_ne (slots : SlotTable) (change : SlotInfo → SlotInfo) {slot other : Nat}
    (hne : other ≠ slot) : (slots.update change slot).info other = slots.info other := by
  match slot, other with
  | 0, _ | 1, _ => rfl
  | _ + 2, 0 | _ + 2, 1 => rfl
  | slot + 2, other + 2 => exact getD_updateAt_of_ne change slots (by omega)

end SlotTable

/-- What a transaction holds of a slot. A stale slot is known but its table has not been read yet,
and `unread` says that none was ever read into its place; a fresh slot was opened in this
transaction; a dirty one has a table to be recorded at the commit. -/
structure TxnSlot where
  usable : Bool := false
  stale : Bool := false
  unread : Bool := false
  fresh : Bool := false
  dirty : Bool := false
  touched : Bool := false
  sequence : Nat := 0
  table : Table := {}
  deriving DecidableEq, Repr

namespace SlotTable

/-- The slots of a new transaction: those that committed opens have made known. Each keeps the
table that an earlier transaction left in its place, if one is in `memory`, under the flags now
known. -/
def fresh (slots : SlotTable) (known : Nat) (memory : List (Option Table)) : List TxnSlot :=
  (List.range known).map fun index ↦
    let info := slots.getD index {}
    { usable := info.known
      stale := info.known
      unread := (memory.getD index none).isNone
      sequence := info.sequence
      table := { (memory.getD index none).getD {} with flags := info.flags } }

/-- Free the slots that a transaction opened, because it ends without a commit. -/
def discard (slots : SlotTable) (named : List TxnSlot) : SlotTable :=
  slots.mapIdx fun index info ↦
    if (named.getD index {}).fresh then info.closed else info

/-- Make the slots that a transaction opened known to later transactions. -/
def keep (slots : SlotTable) (named : List TxnSlot) : SlotTable :=
  slots.mapIdx fun index info ↦
    let content := named.getD index {}
    if content.fresh then { info with flags := content.table.flags, known := true } else info

end SlotTable

end MappedStore.Engine
