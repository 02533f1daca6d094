import MappedStore.Session.Request

/-!
# Steps of a session

A session keeps a process and the names of what it uses. `Session.step` answers one request. A
name of an environment or a transaction must be free before it is bound, and only an operation
that succeeds binds it; the name of a handle may be bound anew. Transactions nested in one that is
dropped or aborted are forgotten with it: their names are free, but an unfinished one still counts
for its environment.
-/

namespace MappedStore

open Session

/-- What a session uses, by name. -/
abbrev Names (α : Type) := List (String × α)

namespace Names

variable {α : Type}

/-- Bind a name, which loses what it was bound to. -/
def bind (names : Names α) (name : String) (value : α) : Names α :=
  (name, value) :: names.filter (·.1 ≠ name)

/-- Free a name. -/
def free (names : Names α) (name : String) : Names α := names.filter (·.1 ≠ name)

/-- The bindings in the order of the names. -/
def sorted (names : Names α) : Names α := names.mergeSort fun left right ↦ left.1 ≤ right.1

end Names

/-- A process with the names of what a user of it holds. -/
structure Session where
  system : System
  kind : ViewKind := .default
  builders : Names Builder := []
  environments : Names EnvId := []
  transactions : Names TxnId := []
  databases : Names Database := []

namespace Session

/-- The answer to a request, the events on the way, and the session that it leaves. -/
structure Step where
  result : Except Failure Reply
  events : List Event
  session : Session

/-- The working directory. -/
def home : Bytes := Bytes.ofText "$W"

/-- A session of a new process, whose working directory is empty. -/
def start (checks : Bool) (kind : ViewKind) : Session where
  system := { checks := checks, files := Files.Tree.place {} [home] .directory }
  kind := kind

/-- A path below the working directory. The empty path stays empty. -/
def locate (path : Bytes) : Bytes :=
  if path.isEmpty then [] else home ++ 47 :: path

/-- Answer without a step of the process. -/
def answer (session : Session) (reply : Reply) : Step := ⟨.ok reply, [], session⟩

/-- Refuse without a step of the process. -/
def refuse (session : Session) (failure : Failure) : Step := ⟨.error failure, [], session⟩

/-- Answer by an operation. A result may change what the names of the session mean. -/
def settle {α : Type} (session : Session) (outcome : Outcome α)
    (reply : α → Session → Reply × Session) : Step :=
  let after := { session with system := outcome.state }
  match outcome.result with
  | .error refusal => ⟨.error (.ofRefusal refusal), outcome.events, after⟩
  | .ok value =>
      let (reply, after) := reply value after
      ⟨.ok reply, outcome.events, after⟩

/-- Answer by an operation whose result is the answer. -/
def relay {α : Type} (session : Session) (outcome : Outcome α) (reply : α → Reply) : Step :=
  session.settle outcome fun value session ↦ (reply value, session)

/-! ## Files -/

/-- Answer a request about files. -/
def onFile (session : Session) (path : Bytes) (request : FileRequest) : Step :=
  let path := locate path
  let tree := session.system.files
  let withTree (tree : Files.Tree) : Session :=
    { session with system := { session.system with files := tree } }
  let change (edit : Files.File → Files.File) : Step :=
    match tree.openExisting path with
    | .error errno => session.refuse (.file errno)
    | .ok (location, file) => (withTree (tree.place location (.file (edit file)))).answer .done
  match request with
  | .makeDirectory =>
      match tree.makePath path with
      | (.error errno, tree) => (withTree tree).refuse (.file errno)
      | (.ok (), tree) => (withTree tree).answer .done
  | .write data =>
      match tree.openOrCreate path (Files.masked 0o666) with
      | (.error errno, tree) => (withTree tree).refuse (.file errno)
      | (.ok (location, file), tree) =>
          (withTree (tree.place location (.file (.ofBytes file.mode data)))).answer .done
  | .patch offset data => change fun file ↦ file.patch offset data
  | .truncate length => change fun file ↦ file.resize length
  | .remove =>
      match tree.openExisting path with
      | .error errno => session.refuse (.file errno)
      | .ok (location, _) => (withTree (tree.remove location)).answer .done
  | .list =>
      match tree.locate path with
      | .error errno => session.refuse (.file errno)
      | .ok (_, .file _) => session.refuse (.file SystemText.notDirectory)
      | .ok (location, .directory) =>
          session.answer (.names ((tree.children location).mergeSort fun left right ↦
            !Engine.Order.precedes right left))
  | .mode =>
      match tree.locate path with
      | .error errno => session.refuse (.file errno)
      | .ok (_, .file file) => session.answer (.text (String.ofList (Nat.toDigits 8 file.mode)))
      | .ok (_, .directory) => session.answer (.text "755")

/-! ## Builders and opens -/

/-- Answer a request about a builder. -/
def onBuilder (session : Session) (name : String) (request : BuilderRequest) : Step :=
  let bind (builder : Builder) : Session :=
    { session with builders := session.builders.bind name builder }
  let change (builder : Except Error Builder) : Step :=
    match builder with
    | .error error => session.refuse (.error error)
    | .ok builder => (bind builder).answer .done
  match request, session.builders.lookup name with
  | .create, _ => (bind {}).answer .done
  | _, none => session.refuse .unknownBuilder
  | .setMapSize size, some builder => change (builder.setMapSize size)
  | .setMaxDbs count, some builder => change (builder.setMaxDbs count)
  | .setMaxReaders count, some builder => change (builder.setMaxReaders count)
  | .setMode mode, some builder => change (builder.setMode mode)
  | .config, some builder => session.answer (.builder builder)

/-- The number of bytes in so many mebibytes, or the largest size if there are too many. -/
def mebibytes (count : Nat) : Nat := min (count * 1048576) (UInt64.size - 1)

/-- The builder for an open by settings. -/
def Settings.builder (settings : Settings) : Builder :=
  let config : Config := {}
  ⟨some
    { config with
      mapSize := settings.mapSize.getD config.mapSize
      maxDbs := settings.maxDbs.getD config.maxDbs
      maxReaders := settings.maxReaders.getD config.maxReaders }⟩

/-- Bind the environment that an open gives. -/
def bindEnvironment (session : Session) (name : String) (outcome : Outcome EnvId) : Step :=
  session.settle outcome fun env session ↦
    (.done, { session with environments := session.environments.bind name env })

/-- Open an environment under a new name. -/
def openEnvironment (session : Session) (name : String) (path : Bytes) (flags : EnvFlags)
    (opening : Opening) : Step :=
  if (session.environments.lookup name).isSome then session.refuse .takenEnvironment
  else
    let path := locate path
    let attempt (system : System) (builder : Builder) (mode : Option UInt32) :
        Builder × Outcome EnvId :=
      system.openEnvironment builder path flags mode session.kind
    match opening with
    | .builder builderName mode =>
        match session.builders.lookup builderName with
        | none => session.refuse .unknownBuilder
        | some builder =>
            let (builder, outcome) := attempt session.system builder mode
            { session with builders := session.builders.bind builderName builder }.bindEnvironment
              name outcome
    | .sized count =>
        let builder : Builder := ⟨some { mapSize := mebibytes count }⟩
        session.bindEnvironment name (attempt session.system builder none).2
    | .settings settings makeDirectory =>
        let files :=
          if makeDirectory then (session.system.files.makePath path).2 else session.system.files
        session.bindEnvironment name
          (attempt { session.system with files := files } settings.builder none).2

/-! ## Environments -/

/-- Bind the handle that an open gives. -/
def bindDatabase (session : Session) (name : String) (outcome : Outcome Database) : Step :=
  session.settle outcome fun database session ↦
    (.database database, { session with databases := session.databases.bind name database })

/-- The thread that a read on a thread of its own begins. -/
def otherThread : Nat := System.mainThread + 1

/-- Answer a request about an environment. -/
def onEnvironment (session : Session) (name : String) (request : EnvironmentRequest) : Step :=
  match session.environments.lookup name with
  | none => session.refuse .unknownEnvironment
  | some env =>
      let system := session.system
      match request with
      | .close => session.relay (system.close env) fun _ ↦ .done
      | .drop => session.settle (system.dropEnvironment env) fun _ session ↦
          (.done, { session with environments := session.environments.free name })
      | .state => session.answer (.environment env (system.environment env))
      | .debug => session.answer (.text ((system.environment env).debug env))
      | .active => session.answer (.count (system.environment env).active)
      | .stat => session.relay (system.environmentStat env) .stat
      | .info pages => session.relay (system.info env) fun info ↦ .info info pages
      | .sync => session.relay (system.sync env) fun _ ↦ .done
      | .readerCheck => session.relay (system.readerCheck env) .count
      | .copy destination flags =>
          if !(system.environment env).closed && (system.environment env).writerLocked then
            session.refuse .wouldBlock
          else
            session.relay (system.copy env (locate destination) flags System.mainThread) fun _ ↦
              .done
      | .openDatabase database name flags =>
          session.bindDatabase database (system.openDatabase env name flags System.mainThread)
      | .createDatabase database name =>
          session.bindDatabase database (system.createDatabase env name System.mainThread)
      | .getOnThread database key =>
          match session.databases.lookup database with
          | none => session.refuse .unknownDatabase
          | some database =>
              session.relay (system.getOnThread env database key otherThread) .value

/-! ## Transactions -/

/-- Bind the transaction that a begin gives. -/
def bindTransaction (session : Session) (name : String) (outcome : Outcome TxnId) : Step :=
  session.settle outcome fun txn session ↦
    (.done, { session with transactions := session.transactions.bind name txn })

/-- Begin a transaction under a new name. -/
def begin (session : Session) (name env : String) (parent : Option String) (flags : TxnFlags) :
    Step :=
  if (session.transactions.lookup name).isSome then session.refuse .takenTransaction
  else
    match session.environments.lookup env, parent.map (List.lookup · session.transactions) with
    | none, _ => session.refuse .unknownEnvironment
    | some _, some none => session.refuse .unknownTransaction
    | some env, some (some parent) =>
        session.bindTransaction name
          (session.system.begin env (some parent) flags System.mainThread)
    | some env, none =>
        session.bindTransaction name (session.system.begin env none flags System.mainThread)

/-- Begin a nested transaction under a new name. -/
def beginChild (session : Session) (name parent : String) (flags : TxnFlags) : Step :=
  if (session.transactions.lookup name).isSome then session.refuse .takenTransaction
  else
    match session.transactions.lookup parent with
    | none => session.refuse .unknownTransaction
    | some parent => session.bindTransaction name (session.system.beginChild parent flags)

/-- Forget the transactions nested in another, however deep; with `finished` also those that have
ended. -/
def forgetNested (session : Session) (txn : TxnId) (finished : Bool) : Session :=
  { session with
    transactions := session.transactions.filter fun entry ↦
      entry.2 = txn || !(session.system.lineage entry.2).contains txn
        || (!finished && (session.system.transaction entry.2).state.isFinished) }

/-- Answer a request about a transaction. -/
def onTransaction (session : Session) (name : String) (request : TransactionRequest) : Step :=
  match session.transactions.lookup name with
  | none => session.refuse .unknownTransaction
  | some txn =>
      let system := session.system
      let transaction := system.transaction txn
      let without (finished : Bool) : Session :=
        { session.forgetNested txn finished with
          transactions := (session.forgetNested txn finished).transactions.free name }
      match request with
      | .commit => session.relay (system.commit txn) fun _ ↦ .done
      | .abort =>
          if transaction.state.isFinished then session.answer .done
          else (session.forgetNested txn false).relay (system.abort txn) fun _ ↦ .done
      | .reset => session.relay (system.reset txn) fun _ ↦ .done
      | .renew => session.relay (system.renew txn) fun _ ↦ .done
      | .drop => (without true).relay (system.dropTransaction txn) fun _ ↦ .done
      | .leak => (without true).answer .done
      | .state => session.answer (.transaction transaction)
      | .debug => session.answer (.text transaction.debug)
      | .openDatabase database name flags =>
          session.bindDatabase database (system.openThrough txn name flags)

/-! ## Data -/

/-- A key with a number of five digits at least. -/
def numberedKey (stem : Bytes) (number : Nat) : Bytes :=
  let digits := Nat.toDigits 10 number
  stem ++ Bytes.ofText (String.ofList (List.replicate (5 - digits.length) '0' ++ digits))

/-- Numbered keys from a first number on. -/
def numberedKeys (stem : Bytes) (first count : Nat) : List Bytes :=
  (List.range count).map fun index ↦ numberedKey stem (first + index)

/-- Reserve a buffer and fill it with a repeated pattern. -/
def reserveFilled (system : System) (txn : TxnId) (database : Database) (key : Bytes)
    (length : Nat) (pattern : Bytes) (flags : WriteFlags) : Outcome Nat :=
  (system.reserve txn database key length flags).andThen fun length system ↦
    (system.fill txn database key (Bytes.cycle pattern length)).done length

/-- Answer a request about the data of a database. -/
def onData (session : Session) (txn : TxnId) (database : Database) (request : DataRequest) :
    Step :=
  let system := session.system
  match request with
  | .get key => session.relay (system.get txn database key) .value
  | .view key queries => session.relay (system.get txn database key) fun found ↦
      .readings (found.map fun data ↦ queries.map (Value.mk data).ask)
  | .gets keys => session.relay (system.each (·.get txn database ·) keys) .values
  | .put key value flags => session.relay (system.put txn database key value flags) fun _ ↦ .done
  | .puts stem first count value flags =>
      session.relay
        (system.each (·.put txn database · value flags) (numberedKeys stem first count))
        fun results ↦ .count results.length
  | .reserve key length pattern flags =>
      session.relay (reserveFilled system txn database key length pattern flags) .count
  | .del key item => session.relay (system.del txn database key item) .truth
  | .dels stem first count =>
      session.relay (system.each (·.del txn database · none) (numberedKeys stem first count))
        fun results ↦ .count (results.count true)
  | .stat => session.relay (system.stat txn database) .stat
  | .entries => session.relay (system.stat txn database) fun stat ↦ .count stat.entries
  | .clear => session.relay (system.clear txn database) fun _ ↦ .done
  | .drop => session.relay (system.dropDatabase txn database) fun _ ↦ .done

/-! ## Requests -/

/-- Answer a request. -/
def step (session : Session) : Request → Step
  | .file path request => session.onFile path request
  | .builder builder request => session.onBuilder builder request
  | .openEnvironment env path flags opening => session.openEnvironment env path flags opening
  | .environment env request => session.onEnvironment env request
  | .begin txn env parent flags => session.begin txn env parent flags
  | .beginChild txn parent flags => session.beginChild txn parent flags
  | .transaction txn request => session.onTransaction txn request
  | .data txn database request =>
      match session.transactions.lookup txn, session.databases.lookup database with
      | none, _ => session.refuse .unknownTransaction
      | some _, none => session.refuse .unknownDatabase
      | some txn, some database => session.onData txn database request
  | .describe database =>
      match session.databases.lookup database with
      | none => session.refuse .unknownDatabase
      | some database => session.answer (.database database)
  | .debug database =>
      match session.databases.lookup database with
      | none => session.refuse .unknownDatabase
      | some database => session.answer (.text database.debug)
  | .same left right =>
      match session.databases.lookup left, session.databases.lookup right with
      | some left, some right => session.answer (.truth (left = right))
      | _, _ => session.refuse .unknownDatabase

end Session

end MappedStore
