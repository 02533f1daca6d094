import MappedStore.Error.Condition
import MappedStore.Error.SystemText
import MappedStore.Text.Quoted

/-!
# Errors

An error is either raised by the handle layer before the engine is reached, or decoded from a
result code of the engine. `Error.ofCode` decodes a code and `Error.code` gives it back; errors of
the handle layer have no code. `Error.message` is the sentence shown to users.
-/

namespace MappedStore

/-- Why a path was refused as the destination of a copy. -/
inductive CopyCause where
  | missing
  | notDirectory
  | notEmpty
  deriving DecidableEq, Repr

namespace CopyCause

/-- The name of a cause. -/
def name : CopyCause → String
  | missing => "Missing"
  | notDirectory => "NotDirectory"
  | notEmpty => "NotEmpty"

/-- The clause that describes a cause. -/
def message : CopyCause → String
  | missing => "path does not exist"
  | notDirectory => "path is not a directory"
  | notEmpty => "directory is not empty"

end CopyCause

/-- A failure of the file system met by the handle layer itself. -/
inductive FileFault where
  | system (number : Nat)
  | nulInName
  deriving DecidableEq, Repr

/-- The sentence that describes a failure of the file system. -/
def FileFault.message : FileFault → String
  | system number =>
      SystemText.describe number ++ " (os error " ++ toString number ++ ")"
  | nulInName => "file name contained an unexpected NUL byte"

/-- What can go wrong in an operation of the store. -/
inductive Error where
  | envClosed
  | alreadyOpen
  | txnFinished
  | txnHasChild
  | txnsActive (count : Nat)
  | envReadOnly
  | txnReadOnly
  | txnReset
  | txnNotReset
  | txnNotReadOnly
  | invalidPath (path : Bytes)
  | invalidCopyDestination (path : Bytes) (cause : CopyCause)
  | foreignTransaction
  | foreignDatabase
  | databaseNotRetained (slot : Nat)
  | invalidDatabaseName (name : String)
  | keyTooLarge (length max : Nat)
  | outOfBounds (offset width length : Nat)
  | utf8 (fault : Utf8.Fault)
  | io (fault : FileFault)
  | engine (condition : Condition)
  | native (code : Code)
  deriving DecidableEq, Repr

namespace Error

/-- The engine's own text for a code that is none of its named conditions. -/
def nativeText (code : Code) : String :=
  if code = 0 then "Successful return: 0" else SystemText.describe code.toInt

/-- The error that an engine code stands for. -/
def ofCode (code : Code) : Error :=
  match Condition.ofCode? code with
  | some condition => .engine condition
  | none => .native code

/-- The engine code behind an error, if the engine raised it. -/
def code : Error → Option Code
  | engine condition => some condition.code
  | native code => some code
  | _ => none

/-- The result of a call by its code: zero is success. -/
def check (code : Code) : Except Error Unit :=
  if code = 0 then .ok () else .error (ofCode code)

/-- The code of success passes the check. -/
@[simp]
theorem check_zero : check 0 = .ok () := rfl

/-- Any other code is decoded. -/
theorem check_of_ne_zero {code : Code} (h : code ≠ 0) : check code = .error (ofCode code) :=
  if_neg h

/-- Whether a larger map or more slots would help, rather than another attempt. -/
def isTuningSignal : Error → Bool
  | engine .mapFull | engine .readersFull | engine .dbsFull => true
  | _ => false

/-- The cause of a refused copy destination. -/
def cause : Error → Option CopyCause
  | invalidCopyDestination _ cause => some cause
  | _ => none

/-- The name of the kind of error. -/
def name : Error → String
  | envClosed => "EnvClosed"
  | alreadyOpen => "AlreadyOpen"
  | txnFinished => "TxnFinished"
  | txnHasChild => "TxnHasChild"
  | txnsActive _ => "TxnsActive"
  | envReadOnly => "EnvReadOnly"
  | txnReadOnly => "TxnReadOnly"
  | txnReset => "TxnReset"
  | txnNotReset => "TxnNotReset"
  | txnNotReadOnly => "TxnNotReadOnly"
  | invalidPath _ => "InvalidPath"
  | invalidCopyDestination .. => "InvalidCopyDestination"
  | foreignTransaction => "ForeignTransaction"
  | foreignDatabase => "ForeignDatabase"
  | databaseNotRetained _ => "DatabaseNotRetained"
  | invalidDatabaseName _ => "InvalidDatabaseName"
  | keyTooLarge .. => "KeyTooLarge"
  | outOfBounds .. => "OutOfBounds"
  | utf8 _ => "Utf8"
  | io _ => "Io"
  | engine condition => condition.name
  | native _ => "Native"

/-- The sentence that describes an error. -/
def message : Error → String
  | envClosed => "Environment is closed"
  | alreadyOpen => "Environment is already open"
  | txnFinished => "Transaction has already finished"
  | txnHasChild => "Transaction has an active child transaction"
  | txnsActive count => "Environment has " ++ toString count ++ " unresolved transaction(s)"
  | envReadOnly => "Environment is read-only"
  | txnReadOnly => "Transaction is read-only"
  | txnReset => "Transaction is reset"
  | txnNotReset => "Transaction is not reset"
  | txnNotReadOnly => "Operation requires a read-only transaction"
  | invalidPath path => "Invalid environment path: " ++ Text.quoteBytes path
  | invalidCopyDestination path cause =>
      "Invalid copy destination " ++ Text.quoteBytes path ++ ": " ++ cause.message
  | foreignTransaction => "Parent transaction belongs to a different environment"
  | foreignDatabase => "Database handle belongs to a different environment"
  | databaseNotRetained slot =>
      "Database handle " ++ toString slot ++ " is not retained by the environment"
  | invalidDatabaseName name => "Invalid database name: " ++ Text.quote name
  | keyTooLarge length max =>
      "Key of " ++ toString length ++ " bytes exceeds the maximum of " ++ toString max
  | outOfBounds offset width length =>
      "Read of " ++ toString width ++ " bytes at offset " ++ toString offset
        ++ " exceeds value of " ++ toString length ++ " bytes"
  | utf8 fault => "Value is not valid UTF-8: " ++ fault.message
  | io fault => "I/O error: " ++ fault.message
  | engine condition => condition.message
  | native code => "Native error " ++ toString code ++ ": " ++ nativeText code

/-- The text of an engine error with its fields. -/
def debug : Error → String
  | native code =>
      "Native \x7b code: " ++ toString code ++ ", message: " ++ Text.quote (nativeText code)
        ++ " \x7d"
  | error => error.name

end Error

end MappedStore
