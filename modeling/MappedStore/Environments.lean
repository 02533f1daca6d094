import MappedStore.Data

/-!
# Environments as wholes

Opening and closing an environment, copying it, flushing it, its figures, and the opens of a
database that bring a transaction of their own.
-/

namespace MappedStore

open Files (Tree)

/-- The last component of a path, unless it leads upwards; components that stay in place do not
count. -/
def fileName? (path : Bytes) : Option Bytes :=
  (((Files.components path).filter (· ≠ Files.here)).getLast?).filter (· ≠ Files.above)

/-- A path below a directory. -/
def joinPath (directory name : Bytes) : Bytes :=
  if directory.getLast? = some 47 then directory ++ name else directory ++ 47 :: name

/-- Why a path cannot be the destination of a copy, if it cannot: only an empty directory can. -/
def copyFault (tree : Tree) (destination : Bytes) : Option Error :=
  if destination.contains 0 then some (.io .nulInName)
  else
    match tree.locate destination with
    | .error errno =>
        some (if errno = SystemText.noEntry then .invalidCopyDestination destination .missing
          else .io (.system errno))
    | .ok (_, .file _) => some (.invalidCopyDestination destination .notDirectory)
    | .ok (location, .directory) =>
        if (tree.children location).isEmpty then none
        else some (.invalidCopyDestination destination .notEmpty)

namespace Environment

/-- Where the engine is told to copy an environment: a single file keeps its own name within the
destination. -/
def copyTarget (environment : Environment) (destination : Bytes) : Bytes :=
  if environment.flags.contains EnvFlags.noSubdir then
    joinPath destination ((fileName? environment.path).getD (Bytes.ofText "data.mdb"))
  else destination

/-- Whether a copy would wait for a root writer, because it takes the lock of the writer. -/
def delaysCopy (environment : Environment) (flags : CopyFlags) : Bool :=
  environment.writerLocked && environment.engine.copyLocks flags

/-- An environment with its fields. -/
def debug (environment : Environment) (env : EnvId) : String :=
  "Environment \x7b id: " ++ toString env.ordinal ++ ", path: " ++ Text.quoteBytes environment.path
    ++ ", flags: " ++ environment.flags.debug ++ ", closed: " ++ toString environment.closed
    ++ ", active_txns: " ++ toString environment.active ++ " \x7d"

end Environment

/-- A transaction with its fields. -/
def Transaction.debug (txn : Transaction) : String :=
  "Transaction \x7b env: " ++ toString txn.env.ordinal ++ ", read_only: " ++ toString txn.readOnly
    ++ ", nested: " ++ toString txn.parent.isSome ++ ", state: " ++ txn.state.name ++ " \x7d"

namespace System

/-! ## Opening and closing -/

/-- Let the engine open an environment with settings that a builder gave up. It gets the next
number. What the engine has made of a failed open is closed again. -/
def openWith (system : System) (path : Bytes) (flags : EnvFlags) (config : Config)
    (kind : ViewKind) : Outcome EnvId :=
  let env := system.environments.length
  let call := Call.openEnvironment path flags config
  let (result, files) := Engine.openAt system.files path flags config
  match Error.check (codeOf result) with
  | .error error =>
      ⟨.error (.error error),
        [.call env call (codeOf result), .call env .closeEnvironment 0,
          .log (.openFailed path error)],
        { system with files := files }⟩
  | .ok () =>
      let environment : Environment :=
        { path := path
          flags := flags
          maxReaders := config.maxReaders
          kind := kind
          engine := result.toOption.getD .unopened }
      ⟨.ok env, [.call env call (codeOf result), .log (.opened env path flags kind)],
        { system with files := files, environments := system.environments ++ [environment] }⟩

/-- Open an environment through a builder; an explicit mode overrides the configured one. -/
def openEnvironment (system : System) (builder : Builder) (path : Bytes) (flags : EnvFlags)
    (mode : Option UInt32) (kind : ViewKind) : Builder × Outcome EnvId :=
  match builder.take path mode with
  | (.error error, builder) => (builder, system.fail error)
  | (.ok config, builder) => (builder, system.openWith path flags config kind)

/-- Close an environment, unless transactions of it are alive. Closing it again does nothing. -/
def close (system : System) (env : EnvId) : Outcome Unit :=
  let environment := system.environment env
  if environment.closed then system.done ()
  else if environment.active > 0 then system.fail (.txnsActive environment.active)
  else
    ⟨.ok (), [.call env .closeEnvironment 0, .log (.closed env)],
      { system.modifyEnvironment env fun ended ↦ { ended with closed := true, retained := [] } with
        files := environment.engine.close system.files }⟩

/-- Drop an environment: it is closed, or left as it is for good if it cannot be closed. -/
def dropEnvironment (system : System) (env : EnvId) : Outcome Unit :=
  let outcome := system.close env
  match outcome.result with
  | .error (.error error) =>
      ⟨.ok (), outcome.events ++ [.log (.leaked env error)], outcome.state⟩
  | .error .wait | .ok () => ⟨.ok (), outcome.events, outcome.state⟩

/-! ## The whole environment -/

/-- Do something with an environment that is open. -/
def whileOpen {α : Type} (system : System) (env : EnvId) (use : Environment → Outcome α) :
    Outcome α :=
  if (system.environment env).closed then system.fail .envClosed
  else use (system.environment env)

/-- Copy an environment into an empty directory, on a thread. -/
def copy (system : System) (env : EnvId) (destination : Bytes) (flags : CopyFlags)
    (thread : Nat) : Outcome Unit :=
  system.whileOpen env fun environment ↦
    match copyFault system.files destination with
    | some error => system.fail error
    | none =>
        let target := environment.copyTarget destination
        if !isUsablePath target then system.fail (.invalidPath target)
        else if environment.delaysCopy flags then ⟨.error .wait, [], system⟩
        else
          let (result, engine, files) :=
            environment.engine.copy system.files target flags thread
          let call := Event.call env (.copy target flags) (codeOf result)
          let system :=
            { system.modifyEnvironment env ({ · with engine := engine }) with files := files }
          match Error.check (codeOf result) with
          | .error error =>
              ⟨.error (.error error), [.log (.copying env destination), call], system⟩
          | .ok () =>
              ⟨.ok (),
                [.log (.copying env destination), call, .log (.copied env destination)],
                system⟩

/-- The figures of the committed main database. -/
def environmentStat (system : System) (env : EnvId) : Outcome Engine.Stat :=
  system.whileOpen env fun _ ↦ system.relay env .stat fun engine ↦ (.ok engine.stat, engine)

/-- Facts about the map and the reader slots. -/
def info (system : System) (env : EnvId) : Outcome Engine.Info :=
  system.whileOpen env fun _ ↦ system.relay env .info fun engine ↦ (.ok engine.info, engine)

/-- Flush an environment to disk. -/
def sync (system : System) (env : EnvId) : Outcome Unit :=
  system.whileOpen env fun environment ↦
    if system.checks && environment.isReadOnly then
      (system.fail .envReadOnly).after [.consulted]
    else
      (system.relay env .sync fun engine ↦
        (if engine.sync = 0 then .ok () else .error engine.sync, engine)).after [.consulted]

/-- Clear the reader slots of processes that have died, and count them. There are no other
processes. -/
def readerCheck (system : System) (env : EnvId) : Outcome Nat :=
  system.whileOpen env fun _ ↦ system.relay env .readerCheck fun engine ↦ (.ok 0, engine)

/-! ## Transactions of their own -/

/-- Open a database in a transaction of its own on a thread, which is committed at once. -/
def openDatabase (system : System) (env : EnvId) (name : Option String) (flags : DbFlags)
    (thread : Nat) : Outcome Database :=
  let kind : TxnFlags :=
    if (system.environment env).isReadOnly then TxnFlags.readOnly else .empty
  (system.begin env none kind thread).andThen fun txn system ↦
    let opened := system.openThrough txn name flags
    match opened.result with
    | .error refusal =>
        let dropped := opened.state.dropTransaction txn
        ⟨.error refusal, opened.events ++ dropped.events, dropped.state⟩
    | .ok database =>
        ((opened.state.commit txn).map fun _ ↦ database).after opened.events

/-- Open a database in a transaction of its own, and create it if it is absent. -/
def createDatabase (system : System) (env : EnvId) (name : Option String) (thread : Nat) :
    Outcome Database :=
  system.openDatabase env name DbFlags.create thread

/-- Read the value of a key on a thread that begins a transaction for it and then ends. -/
def getOnThread (system : System) (env : EnvId) (database : Database) (key : Bytes)
    (thread : Nat) : Outcome (Option Bytes) :=
  (system.begin env none TxnFlags.readOnly thread).andThen fun txn system ↦
    let read := system.get txn database key
    let dropped := read.state.dropTransaction txn
    ⟨read.result, read.events ++ dropped.events,
      dropped.state.modifyEnvironment env fun environment ↦
        { environment with engine := environment.engine.endThread thread }⟩

end System

end MappedStore
