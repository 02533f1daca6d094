import MappedStore.Checks
import MappedStore.Database
import MappedStore.Error
import MappedStore.View

/-!
# Log records

Every operation that begins, ends or changes something reports it. A record is a fact; its level
and its wording are functions of it.
-/

namespace MappedStore.Log

/-- How urgent a record is, the most urgent first. -/
inductive Level where
  | error
  | warn
  | info
  | debug
  | trace
  deriving DecidableEq, Repr

namespace Level

/-- The rank of a level; more urgent levels rank lower. -/
def rank : Level → Nat
  | error => 0
  | warn => 1
  | info => 2
  | debug => 3
  | trace => 4

/-- The name of a level. -/
def name : Level → String
  | error => "ERROR"
  | warn => "WARN"
  | info => "INFO"
  | debug => "DEBUG"
  | trace => "TRACE"

/-- Whether a record of one level is kept where records down to another level are. -/
def isKeptAt (level threshold : Level) : Bool := level.rank ≤ threshold.rank

end Level

/-- A reported fact. -/
inductive Record where
  | checksDisabled
  | openFailed (path : Bytes) (error : Error)
  | opened (env : EnvId) (path : Bytes) (flags : EnvFlags) (kind : ViewKind)
  | closed (env : EnvId)
  | leaked (env : EnvId) (error : Error)
  | copying (env : EnvId) (destination : Bytes)
  | copied (env : EnvId) (destination : Bytes)
  | began (readOnly nested : Bool)
  | committed
  | commitFailed (error : Error)
  | abandoned
  | aborted
  | reset
  | renewed
  | openedDatabase (name : Option String) (slot generation : Nat)
  | put (size slot : Nat)
  deriving DecidableEq, Repr

namespace Record

/-- The level of a record. -/
def level : Record → Level
  | leaked .. => .error
  | copying .. | abandoned => .warn
  | checksDisabled => .info
  | openFailed .. | opened .. | closed .. | copied .. | began .. | committed | commitFailed ..
  | aborted => .debug
  | reset | renewed | openedDatabase .. | put .. => .trace

/-- The wording of a record. -/
def text : Record → String
  | checksDisabled => "non-critical checks disabled via " ++ Checks.variableName
  | openFailed path error =>
      "failed to open environment at " ++ Text.quoteBytes path ++ ": " ++ error.message
  | opened env path flags kind =>
      "environment " ++ toString env.ordinal ++ " opened at " ++ Text.quoteBytes path ++ " (flags "
        ++ flags.debug ++ ", proxy " ++ kind.name ++ ")"
  | closed env => "environment " ++ toString env.ordinal ++ " closed"
  | leaked env error =>
      "environment " ++ toString env.ordinal ++ " dropped without closing: " ++ error.message
        ++ "; native handle leaked"
  | copying env destination =>
      "environment " ++ toString env.ordinal ++ ": live copy to " ++ Text.quoteBytes destination
        ++ " pins a snapshot; the map may grow under concurrent writes"
  | copied env destination =>
      "environment " ++ toString env.ordinal ++ " copied to " ++ Text.quoteBytes destination
  | began readOnly nested =>
      "begin " ++ (if readOnly then "read" else "write") ++ " transaction (nested: "
        ++ toString nested ++ ")"
  | committed => "transaction committed"
  | commitFailed error => "transaction commit failed: " ++ error.message
  | abandoned => "write transaction dropped without commit or abort; aborting"
  | aborted => "transaction aborted"
  | reset => "transaction reset"
  | renewed => "transaction renewed"
  | openedDatabase name slot generation =>
      "opened database " ++ debugName name ++ " as dbi " ++ toString slot ++ " (generation "
        ++ toString generation ++ ")"
  | put size slot => "put " ++ toString size ++ " bytes into dbi " ++ toString slot

end Record

end MappedStore.Log
