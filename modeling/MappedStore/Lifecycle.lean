import MappedStore.Scope

/-!
# Lives of transactions

A transaction begins as a root or nested in another. One that only reads can be reset and renewed.
It ends by a commit, by an abort, or by being dropped, which aborts it if it has not ended. The
environment counts the transactions that have begun and not ended, a transaction counts those
nested directly in it, and the root writer holds the writer lock of its environment until it ends.
-/

namespace MappedStore

/-- Why a transaction cannot be used at this stage of its life, if it cannot. -/
def Transaction.lifecycleFault (txn : Transaction) : Option Error :=
  match txn.state with
  | .reset => some .txnReset
  | .committed | .aborted => some .txnFinished
  | .active => if txn.children > 0 then some .txnHasChild else none

namespace System

/-- The thread on which operations run unless they bring their own. -/
def mainThread : Nat := 0

/-! ## Beginnings -/

/-- Why no transaction of an environment can be nested in another, if it cannot. -/
def nestingFault (system : System) (env : EnvId) (parent : TxnId) : Option Error :=
  if (system.transaction parent).env ≠ env then some .foreignTransaction
  else (system.transaction parent).lifecycleFault

/-- Why a transaction cannot begin, if it cannot. -/
def beginFault (system : System) (env : EnvId) (parent : Option TxnId) (flags : TxnFlags) :
    Option Error :=
  let environment := system.environment env
  if environment.closed then some .envClosed
  else if environment.isReadOnly && !flags.contains TxnFlags.readOnly then some .envReadOnly
  else parent.bind (system.nestingFault env)

/-- Enter a transaction that the engine has begun. It gets the next number. -/
def enter (system : System) (txn : Transaction) : System :=
  let system := system.modifyEnvironment txn.env fun environment ↦
    { environment with
      active := environment.active + 1
      writerLocked := environment.writerLocked || txn.holdsWriter }
  let system :=
    match txn.parent with
    | some parent => system.modifyTransaction parent fun outer ↦
        { outer with children := outer.children + 1 }
    | none => system
  { system with transactions := system.transactions ++ [txn] }

/-- Begin a transaction. A root writer needs the writer lock, and would wait for it while another
root writer is alive. -/
def begin (system : System) (env : EnvId) (parent : Option TxnId) (flags : TxnFlags)
    (thread : Nat) : Outcome TxnId :=
  match system.beginFault env parent flags with
  | some error => system.fail error
  | none =>
      let readOnly := flags.contains TxnFlags.readOnly
      let rootWriter := !readOnly && parent.isNone
      if rootWriter && (system.environment env).writerLocked then ⟨.error .wait, [], system⟩
      else
        let outer := parent.map fun parent ↦ (system.transaction parent).native
        let (result, event, system) :=
          system.perform env (fun result ↦ .begin result.toOption outer flags)
            (·.begin outer flags thread)
        match Error.check (codeOf result), result.toOption with
        | .error error, _ => ⟨.error (.error error), [event], system⟩
        | .ok (), none => ⟨.error (.error (.engine .badTxn)), [event], system⟩
        | .ok (), some native =>
            ⟨.ok system.transactions.length, [event, .log (.began readOnly parent.isSome)],
              system.enter
                { env := env
                  native := native
                  thread := thread
                  readOnly := readOnly
                  parent := parent
                  holdsWriter := rootWriter }⟩

/-- Begin a transaction nested in another, on the thread of that. -/
def beginChild (system : System) (parent : TxnId) (flags : TxnFlags) : Outcome TxnId :=
  system.begin (system.transaction parent).env (some parent) flags (system.transaction parent).thread

/-! ## Endings -/

/-- Let a transaction end in a state: it no longer counts for its environment and its parent, and
gives up the writer lock if it holds it. -/
def finish (system : System) (txn : TxnId) (state : TxnState) : System :=
  let transaction := system.transaction txn
  let system := system.modifyTransaction txn fun ended ↦
    { ended with state := state, holdsWriter := false }
  let system := system.modifyEnvironment transaction.env fun environment ↦
    { environment with
      active := environment.active - 1
      writerLocked := environment.writerLocked && !transaction.holdsWriter }
  match transaction.parent with
  | some parent => system.modifyTransaction parent fun outer ↦
      { outer with children := outer.children - 1 }
  | none => system

/-- Merge the opens and drops of a transaction into its parent, or those of a root into what the
environment retains. -/
def handOver (system : System) (txn : TxnId) : System :=
  let transaction := system.transaction txn
  let system := system.modifyTransaction txn fun emptied ↦
    { emptied with opened := [], dropped := [] }
  match transaction.parent with
  | some parent => system.modifyTransaction parent fun outer ↦
      { outer with
        opened := Opens.merge outer.opened transaction.opened transaction.dropped
        dropped := transaction.dropped ++ outer.dropped }
  | none => system.modifyEnvironment transaction.env fun environment ↦
      { environment with
        retained := Opens.merge environment.retained transaction.opened transaction.dropped }

/-- Commit a transaction. When the engine refuses, it has ended the transaction all the same, and
nothing is handed over. -/
def commit (system : System) (txn : TxnId) : Outcome Unit :=
  let transaction := system.transaction txn
  match transaction.lifecycleFault with
  | some error => system.fail error
  | none =>
      let (result, event, system) :=
        system.perform transaction.env (fun _ ↦ .commit transaction.native)
          (·.commit transaction.native)
      match Error.check (codeOf result) with
      | .ok () => ⟨.ok (), [event, .log .committed], (system.handOver txn).finish txn .committed⟩
      | .error error =>
          ⟨.error (.error error), [event, .log (.commitFailed error)], system.finish txn .aborted⟩

/-- Let the engine discard a transaction, and end it as aborted. -/
def discard (system : System) (txn : TxnId) : Outcome Unit :=
  let transaction := system.transaction txn
  match system.perform transaction.env (fun _ ↦ .abort transaction.native)
      (fun engine ↦ (.ok (), engine.abort transaction.native)) with
  | (_, event, system) => ⟨.ok (), [event], system.finish txn .aborted⟩

/-- Abort a transaction. One that has ended stays as it is. -/
def abort (system : System) (txn : TxnId) : Outcome Unit :=
  if (system.transaction txn).state.isFinished then system.done ()
  else
    (system.discard txn).andThen fun _ system ↦ ⟨.ok (), [.log .aborted], system⟩

/-- Drop a transaction. A writer that has not ended is aborted with a warning, and a reader is
aborted in silence. -/
def dropTransaction (system : System) (txn : TxnId) : Outcome Unit :=
  let transaction := system.transaction txn
  match transaction.state with
  | .committed | .aborted => system.done ()
  | .active =>
      if transaction.readOnly then system.discard txn
      else (system.abort txn).after [.log .abandoned]
  | .reset => system.discard txn

/-! ## Reset and renewal -/

/-- Give up the snapshot of a transaction that only reads. -/
def reset (system : System) (txn : TxnId) : Outcome Unit :=
  let transaction := system.transaction txn
  match transaction.lifecycleFault with
  | some error => system.fail error
  | none =>
      if !transaction.readOnly then system.fail .txnNotReadOnly
      else
        match system.perform transaction.env (fun _ ↦ .reset transaction.native)
            (fun engine ↦ (.ok (), engine.reset transaction.native)) with
        | (_, event, system) =>
            ⟨.ok (), [event, .log .reset],
              system.modifyTransaction txn fun idle ↦ { idle with state := .reset }⟩

/-- Take a fresh snapshot for a transaction that was reset, on the thread that began it. -/
def renew (system : System) (txn : TxnId) : Outcome Unit :=
  let transaction := system.transaction txn
  match transaction.state with
  | .active => system.fail .txnNotReset
  | .committed | .aborted => system.fail .txnFinished
  | .reset =>
      (system.relay transaction.env (.renew transaction.native)
        (·.renew transaction.native transaction.thread)).andThen fun _ system ↦
          ⟨.ok (), [.log .renewed],
            system.modifyTransaction txn fun awake ↦ { awake with state := .active }⟩

end System

end MappedStore
