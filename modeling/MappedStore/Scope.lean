import MappedStore.System

/-!
# Scopes of handles

Which generation of a slot is live depends on who asks. A transaction looks at its own opens and
drops first, then at those of each ancestor, and last at what the environment retains. When a
transaction commits, its opens and drops are merged into the next scope outwards by `merge`.
-/

namespace MappedStore

/-- Opened slots with their generations, the latest first. -/
abbrev Opens := List (Nat × Nat)

/-- Merge the opens and drops of a scope into the opens of the scope around it: dropped slots go,
and the later opens come first. -/
def Opens.merge (outer opened : Opens) (dropped : List Nat) : Opens :=
  opened ++ outer.filter fun entry ↦ !dropped.contains entry.1

/-- A slot that was opened in the inner scope has the generation of that open. -/
theorem Opens.lookup_merge_of_some {outer opened : Opens} {dropped : List Nat}
    {slot generation : Nat} (h : opened.lookup slot = some generation) :
    (Opens.merge outer opened dropped).lookup slot = some generation := by
  simp [Opens.merge, List.lookup_append, h]

/-- What a scope says about a slot. -/
inductive SlotRecord where
  | opened (generation : Nat)
  | dropped
  deriving DecidableEq, Repr

namespace Transaction

/-- What a transaction itself says about a slot; an open outlives a drop of the same slot, since a
drop removes the opens before it. -/
def record? (txn : Transaction) (slot : Nat) : Option SlotRecord :=
  match txn.opened.lookup slot with
  | some generation => some (.opened generation)
  | none => if txn.dropped.contains slot then some .dropped else none

end Transaction

namespace System

/-- The numbers of a transaction and its ancestors, from the inside out, `fuel` of them at most. -/
def lineageFrom (system : System) : Nat → TxnId → List TxnId
  | 0, _ => []
  | fuel + 1, txn =>
      txn ::
        match (system.transaction txn).parent with
        | none => []
        | some parent => lineageFrom system fuel parent

/-- The numbers of a transaction and its ancestors, from the inside out. A parent has a smaller
number than its child, so the number of the innermost bounds the length. -/
def lineage (system : System) (txn : TxnId) : List TxnId :=
  system.lineageFrom (txn + 1) txn

/-- The live generation of a slot as a transaction sees it. -/
def liveGeneration (system : System) (txn : TxnId) (slot : Nat) : Option Nat :=
  match (system.lineage txn).findSome? fun scope ↦ (system.transaction scope).record? slot with
  | some (SlotRecord.opened generation) => some generation
  | some SlotRecord.dropped => none
  | none => (system.environment (system.transaction txn).env).retained.lookup slot

end System

end MappedStore
