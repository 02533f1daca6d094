import MappedStore.Lifecycle

/-!
# Admission to databases

Every use of a database through a transaction passes the same gate. Two checks guard memory and
always run: the transaction is at a stage of its life where it can be used, and the handle belongs
to its environment. The courtesy checks follow, if they are on: the handle is live, a writing
transaction is used for writes, and the key is not too long.
-/

namespace MappedStore

/-- A use of a database: through which handle, whether it writes, and the key that it names. -/
structure Access where
  database : Database
  writes : Bool := false
  key : Option Bytes := none
  deriving DecidableEq, Repr

namespace System

/-- What the memory guards object to, if they do. -/
def guardFault (system : System) (txn : TxnId) (access : Access) : Option Error :=
  (system.transaction txn).lifecycleFault.or
    (if access.database.env ≠ (system.transaction txn).env then some .foreignDatabase else none)

/-- Whether a handle is live in a transaction: its slot has the generation of the handle. -/
def accepts (system : System) (txn : TxnId) (database : Database) : Bool :=
  system.liveGeneration txn database.slot = some database.generation

/-- What the courtesy checks object to, if they do. -/
def courtesyFault (system : System) (txn : TxnId) (access : Access) : Option Error :=
  if !system.accepts txn access.database then some (.databaseNotRetained access.database.slot)
  else if access.writes && (system.transaction txn).readOnly then some .txnReadOnly
  else
    match access.key with
    | none => none
    | some key =>
        if key.length > Engine.maxKeySize then some (.keyTooLarge key.length Engine.maxKeySize)
        else none

/-- Use a database through a transaction, if the gate allows it. -/
def withAccess {α : Type} (system : System) (txn : TxnId) (access : Access)
    (use : Transaction → Outcome α) : Outcome α :=
  match system.guardFault txn access with
  | some error => system.fail error
  | none =>
      match if system.checks then system.courtesyFault txn access else none with
      | some error => (system.fail error).after [.consulted]
      | none => (use (system.transaction txn)).after [.consulted]

end System

end MappedStore
