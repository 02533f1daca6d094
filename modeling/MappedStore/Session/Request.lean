import MappedStore.Environments
import MappedStore.Value.Query

/-!
# Requests of a session

A session drives a process by requests in which builders, environments, transactions and database
handles go by names of the user's choice. Paths are relative to the working directory of the
session.
-/

namespace MappedStore.Session

/-- A request about files. -/
inductive FileRequest where
  | makeDirectory
  | write (data : Bytes)
  | patch (offset : Nat) (data : Bytes)
  | truncate (length : Nat)
  | remove
  | list
  | mode
  deriving DecidableEq, Repr

/-- A request about a builder. -/
inductive BuilderRequest where
  | create
  | setMapSize (size : Nat)
  | setMaxDbs (count : UInt32)
  | setMaxReaders (count : UInt32)
  | setMode (mode : UInt32)
  | config
  deriving DecidableEq, Repr

/-- Settings for an environment that is opened by a builder of its own. -/
structure Settings where
  mapSize : Option Nat := none
  maxDbs : Option UInt32 := none
  maxReaders : Option UInt32 := none
  deriving DecidableEq, Repr

/-- How an environment is opened: by a named builder, with a map of some mebibytes, or by a builder
of its own after making the directory. -/
inductive Opening where
  | builder (builder : String) (mode : Option UInt32)
  | sized (mebibytes : Nat)
  | settings (settings : Settings) (makeDirectory : Bool)
  deriving DecidableEq, Repr

/-- A request about an environment. -/
inductive EnvironmentRequest where
  | close
  | drop
  | state
  | debug
  | active
  | stat
  | info (pages : Bool)
  | sync
  | readerCheck
  | copy (destination : Bytes) (flags : CopyFlags)
  | openDatabase (database : String) (name : Option String) (flags : DbFlags)
  | createDatabase (database : String) (name : Option String)
  | getOnThread (database : String) (key : Bytes)
  deriving DecidableEq, Repr

/-- A request about a transaction. -/
inductive TransactionRequest where
  | commit
  | abort
  | reset
  | renew
  | drop
  | leak
  | state
  | debug
  | openDatabase (database : String) (name : Option String) (flags : DbFlags)
  deriving DecidableEq, Repr

/-- A request about the data of a database. `puts` and `dels` act on numbered keys, `count` of them
from a first number on. -/
inductive DataRequest where
  | get (key : Bytes)
  | view (key : Bytes) (queries : List Value.Query)
  | gets (keys : List Bytes)
  | put (key value : Bytes) (flags : WriteFlags)
  | puts (stem : Bytes) (first count : Nat) (value : Bytes) (flags : WriteFlags)
  | reserve (key : Bytes) (length : Nat) (pattern : Bytes) (flags : WriteFlags)
  | del (key : Bytes) (item : Option Bytes)
  | dels (stem : Bytes) (first count : Nat)
  | stat
  | entries
  | clear
  | drop
  deriving DecidableEq, Repr

/-- A request. -/
inductive Request where
  | file (path : Bytes) (request : FileRequest)
  | builder (builder : String) (request : BuilderRequest)
  | openEnvironment (env : String) (path : Bytes) (flags : EnvFlags) (opening : Opening)
  | environment (env : String) (request : EnvironmentRequest)
  | begin (txn env : String) (parent : Option String) (flags : TxnFlags)
  | beginChild (txn parent : String) (flags : TxnFlags)
  | transaction (txn : String) (request : TransactionRequest)
  | data (txn database : String) (request : DataRequest)
  | describe (database : String)
  | debug (database : String)
  | same (left right : String)
  deriving DecidableEq, Repr

/-- What a request answers. -/
inductive Reply where
  | done
  | truth (truth : Bool)
  | count (count : Nat)
  | text (text : String)
  | value (value : Option Bytes)
  | values (values : List (Option Bytes))
  | readings (readings : Option (List (Except Error Value.Reading)))
  | names (names : List Bytes)
  | builder (builder : Builder)
  | environment (env : EnvId) (environment : Environment)
  | stat (stat : Engine.Stat)
  | info (info : Engine.Info) (pages : Bool)
  | database (database : Database)
  | transaction (transaction : Transaction)

/-- Why a request gives no answer: the store raised an error, the operation would wait for ever, a
name is unknown or taken, or a file operation failed. -/
inductive Failure where
  | error (error : Error)
  | wouldBlock
  | unknownBuilder
  | unknownEnvironment
  | unknownTransaction
  | unknownDatabase
  | takenEnvironment
  | takenTransaction
  | file (errno : Files.Errno)
  deriving DecidableEq, Repr

/-- The sentence that describes a failure. -/
def Failure.message : Failure → String
  | error fault => fault.message
  | wouldBlock => "would block"
  | unknownBuilder => "no such builder"
  | unknownEnvironment => "no such environment"
  | unknownTransaction => "no such transaction"
  | unknownDatabase => "no such database handle"
  | takenEnvironment => "environment name is taken"
  | takenTransaction => "transaction name is taken"
  | file errno => "file operation: " ++ Files.errnoName errno

/-- A refusal of the store as a failure of a request. -/
def Failure.ofRefusal : Refusal → Failure
  | .error fault => .error fault
  | .wait => .wouldBlock

end MappedStore.Session
