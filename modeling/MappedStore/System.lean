import MappedStore.Engine.Catalog
import MappedStore.Engine.Disk
import MappedStore.Log

/-!
# The state of a process

A process has a file tree, the environments it has opened and the transactions it has begun, each
numbered in order and kept for good. Operations are pure steps on this state. The outcome of a
step is its result, the state it leaves, and the events on the way: log records, engine calls, and
consultations of the switch for courtesy checks.
-/

namespace MappedStore

/-- The stage of life of a transaction. -/
inductive TxnState where
  | active
  | reset
  | committed
  | aborted
  deriving DecidableEq, Repr

namespace TxnState

/-- Whether the transaction has ended. -/
def isFinished : TxnState → Bool
  | active | reset => false
  | committed | aborted => true

/-- The name of a stage. -/
def name : TxnState → String
  | active => "Active"
  | reset => "Reset"
  | committed => "Committed"
  | aborted => "Aborted"

end TxnState

/-- A transaction, which lives on the thread that began it. It remembers the slots opened in it, the
latest first, and the slots dropped in it; those of a nested transaction join its parent's when it
commits. -/
structure Transaction where
  env : EnvId
  native : Nat
  thread : Nat
  readOnly : Bool
  state : TxnState := .active
  parent : Option TxnId := none
  children : Nat := 0
  opened : List (Nat × Nat) := []
  dropped : List Nat := []
  holdsWriter : Bool := false
  deriving DecidableEq, Repr

/-- A transaction that is over; every number that was not given out names it. -/
def Transaction.ended : Transaction where
  env := 0
  native := 0
  thread := 0
  readOnly := true
  state := .aborted

/-- An environment. It retains, for each slot, the generation of the committed open behind it. -/
structure Environment where
  path : Bytes
  flags : EnvFlags
  maxReaders : UInt32
  kind : ViewKind
  closed : Bool := false
  active : Nat := 0
  writerLocked : Bool := false
  retained : List (Nat × Nat) := []
  nextGeneration : Nat := 1
  engine : Engine
  deriving DecidableEq, Repr

namespace Environment

/-- A closed environment; every number that was not given out names it. -/
def absent : Environment where
  path := []
  flags := .empty
  maxReaders := 1
  kind := .default
  closed := true
  engine := .unopened

/-- Whether writes are refused. -/
def isReadOnly (environment : Environment) : Bool := environment.flags.contains EnvFlags.readOnly

end Environment

/-- A call of the engine, with the native transaction that it concerns. A begin carries the handle
that it returned. -/
inductive Call where
  | openEnvironment (path : Bytes) (flags : EnvFlags) (config : Config)
  | closeEnvironment
  | copy (path : Bytes) (flags : CopyFlags)
  | stat
  | info
  | sync
  | readerCheck
  | begin (native : Option Nat) (parent : Option Nat) (flags : TxnFlags)
  | commit (native : Nat)
  | abort (native : Nat)
  | reset (native : Nat)
  | renew (native : Nat)
  | openDatabase (native : Nat) (name : Option Bytes) (flags : DbFlags)
  | get (native slot : Nat) (key : Bytes)
  | put (native slot : Nat) (key : Bytes) (payload : Engine.Payload) (flags : WriteFlags)
  | del (native slot : Nat) (key : Bytes) (item : Option Bytes)
  | statOf (native slot : Nat)
  | drop (native slot : Nat) (delete : Bool)
  deriving DecidableEq, Repr

/-- What happens while an operation runs. -/
inductive Event where
  | log (record : Log.Record)
  | call (env : EnvId) (call : Call) (code : Code)
  | consulted
  deriving DecidableEq, Repr

/-- The state of a process. -/
structure System where
  checks : Bool := true
  files : Files.Tree := {}
  environments : List Environment := []
  transactions : List Transaction := []
  deriving DecidableEq, Repr

/-- Why an operation gives no result: it failed, or it would wait for the writer for ever. -/
inductive Refusal where
  | error (error : Error)
  | wait
  deriving DecidableEq, Repr

/-- The result of an operation, its events in order, and the state it leaves. -/
structure Outcome (α : Type) where
  result : Except Refusal α
  events : List Event
  state : System

namespace Outcome

variable {α β : Type}

/-- Go on with the result of an operation, if it has one. -/
def andThen (outcome : Outcome α) (following : α → System → Outcome β) : Outcome β :=
  match outcome.result with
  | .error refusal => ⟨.error refusal, outcome.events, outcome.state⟩
  | .ok value =>
      let second := following value outcome.state
      { second with events := outcome.events ++ second.events }

/-- An operation that followed some events. -/
def after (events : List Event) (outcome : Outcome α) : Outcome α :=
  { outcome with events := events ++ outcome.events }

/-- An operation with its result changed. -/
def map (change : α → β) (outcome : Outcome α) : Outcome β :=
  ⟨outcome.result.map change, outcome.events, outcome.state⟩

end Outcome

namespace System

variable {α : Type}

/-- A result that took no step. -/
def done (system : System) (value : α) : Outcome α := ⟨.ok value, [], system⟩

/-- An error raised before the engine is reached. -/
def fail (system : System) (error : Error) : Outcome α := ⟨.error (.error error), [], system⟩

/-- Run an operation for each item in turn, up to the first one that gives no result. -/
def each {ι : Type} (system : System) (operation : System → ι → Outcome α) :
    List ι → Outcome (List α)
  | [] => system.done []
  | item :: rest =>
      (operation system item).andThen fun value system ↦
        (each system operation rest).map (value :: ·)

/-- The environment with a number. -/
def environment (system : System) (env : EnvId) : Environment :=
  system.environments.getD env .absent

/-- Change the environment with a number. -/
def modifyEnvironment (system : System) (env : EnvId) (change : Environment → Environment) :
    System :=
  { system with environments := system.environments.modify env change }

/-- The transaction with a number. -/
def transaction (system : System) (txn : TxnId) : Transaction :=
  system.transactions.getD txn .ended

/-- Change the transaction with a number. -/
def modifyTransaction (system : System) (txn : TxnId) (change : Transaction → Transaction) :
    System :=
  { system with transactions := system.transactions.modify txn change }

/-- A changed environment is found changed. -/
theorem environment_modifyEnvironment_self (system : System) {env : EnvId}
    (change : Environment → Environment) (henv : env < system.environments.length) :
    (system.modifyEnvironment env change).environment env = change (system.environment env) := by
  simp [environment, modifyEnvironment, List.getD_eq_getElem?_getD, henv]

/-- A change of one environment leaves the others as they were. -/
theorem environment_modifyEnvironment_of_ne (system : System) {env other : EnvId}
    (change : Environment → Environment) (hne : other ≠ env) :
    (system.modifyEnvironment env change).environment other = system.environment other := by
  simp [environment, modifyEnvironment, List.getD_eq_getElem?_getD, Ne.symm hne]

/-- A changed transaction is found changed. -/
theorem transaction_modifyTransaction_self (system : System) {txn : TxnId}
    (change : Transaction → Transaction) (htxn : txn < system.transactions.length) :
    (system.modifyTransaction txn change).transaction txn = change (system.transaction txn) := by
  simp [transaction, modifyTransaction, List.getD_eq_getElem?_getD, htxn]

/-- A change of one transaction leaves the others as they were. -/
theorem transaction_modifyTransaction_of_ne (system : System) {txn other : TxnId}
    (change : Transaction → Transaction) (hne : other ≠ txn) :
    (system.modifyTransaction txn change).transaction other = system.transaction other := by
  simp [transaction, modifyTransaction, List.getD_eq_getElem?_getD, Ne.symm hne]

/-- A change of an environment leaves the transactions as they were. -/
theorem transaction_modifyEnvironment (system : System) (env : EnvId) (txn : TxnId)
    (change : Environment → Environment) :
    (system.modifyEnvironment env change).transaction txn = system.transaction txn := rfl

/-- A change of a transaction leaves the environments as they were. -/
theorem environment_modifyTransaction (system : System) (txn : TxnId) (env : EnvId)
    (change : Transaction → Transaction) :
    (system.modifyTransaction txn change).environment env = system.environment env := rfl

/-- The code that an answer of the engine amounts to. -/
def codeOf (result : Except Code α) : Code :=
  match result with
  | .ok _ => 0
  | .error code => code

/-- Let the engine of an environment do something. The call is recorded with its code. -/
def perform (system : System) (env : EnvId) (call : Except Code α → Call)
    (run : Engine → Engine.Answer Engine α) : Except Code α × Event × System :=
  let (result, engine) := run (system.environment env).engine
  (result, .call env (call result) (codeOf result),
    system.modifyEnvironment env ({ · with engine := engine }))

/-- Let the engine do something whose result is passed on as it is. The result is what the call has
written once its code is that of success; what a call has not written is zero. -/
def relay [Inhabited α] (system : System) (env : EnvId) (call : Call)
    (run : Engine → Engine.Answer Engine α) : Outcome α :=
  let (result, event, system) := system.perform env (fun _ ↦ call) run
  match Error.check (codeOf result) with
  | .ok () => ⟨.ok (result.toOption.getD default), [event], system⟩
  | .error error => ⟨.error (.error error), [event], system⟩

end System

end MappedStore
