/-!
# Named engine conditions

The engine answers every call with a 32-bit code. Zero is success, twenty consecutive negative codes
are conditions of its own, and the rest are system errors. `Condition.code` tells the code of a
condition and `Condition.ofCode?` the condition of a code. Each names all the codes on its own, and
they are inverse to each other.
-/

namespace MappedStore

/-- A result code of the engine; zero is success. -/
abbrev Code := Int32

/-! ## The engine's own codes -/

namespace Code

def keyExist : Code := -30799
def notFound : Code := -30798
def pageNotFound : Code := -30797
def corrupted : Code := -30796
def fatal : Code := -30795
def versionMismatch : Code := -30794
def invalid : Code := -30793
def mapFull : Code := -30792
def dbsFull : Code := -30791
def readersFull : Code := -30790
def tlsFull : Code := -30789
def txnFull : Code := -30788
def cursorFull : Code := -30787
def pageFull : Code := -30786
def mapResized : Code := -30785
def incompatible : Code := -30784
def badRslot : Code := -30783
def badTxn : Code := -30782
def badValSize : Code := -30781
def badDbi : Code := -30780

end Code

/-! ## Conditions -/

/-- A condition that the engine itself defines. -/
inductive Condition where
  | keyExist
  | notFound
  | pageNotFound
  | corrupted
  | fatal
  | versionMismatch
  | invalid
  | mapFull
  | dbsFull
  | readersFull
  | tlsFull
  | txnFull
  | cursorFull
  | pageFull
  | mapResized
  | incompatible
  | badRslot
  | badTxn
  | badValSize
  | badDbi
  deriving DecidableEq, Repr

namespace Condition

/-- Every condition, in the order of their codes. -/
def all : List Condition :=
  [keyExist, notFound, pageNotFound, corrupted, fatal, versionMismatch, invalid, mapFull, dbsFull,
    readersFull, tlsFull, txnFull, cursorFull, pageFull, mapResized, incompatible, badRslot,
    badTxn, badValSize, badDbi]

/-- The code of a condition. -/
def code : Condition → Code
  | keyExist => .keyExist
  | notFound => .notFound
  | pageNotFound => .pageNotFound
  | corrupted => .corrupted
  | fatal => .fatal
  | versionMismatch => .versionMismatch
  | invalid => .invalid
  | mapFull => .mapFull
  | dbsFull => .dbsFull
  | readersFull => .readersFull
  | tlsFull => .tlsFull
  | txnFull => .txnFull
  | cursorFull => .cursorFull
  | pageFull => .pageFull
  | mapResized => .mapResized
  | incompatible => .incompatible
  | badRslot => .badRslot
  | badTxn => .badTxn
  | badValSize => .badValSize
  | badDbi => .badDbi

/-- The condition with the given code, if it is one of the engine's own. -/
def ofCode? (code : Code) : Option Condition :=
  if code = .keyExist then some keyExist
  else if code = .notFound then some notFound
  else if code = .pageNotFound then some pageNotFound
  else if code = .corrupted then some corrupted
  else if code = .fatal then some fatal
  else if code = .versionMismatch then some versionMismatch
  else if code = .invalid then some invalid
  else if code = .mapFull then some mapFull
  else if code = .dbsFull then some dbsFull
  else if code = .readersFull then some readersFull
  else if code = .tlsFull then some tlsFull
  else if code = .txnFull then some txnFull
  else if code = .cursorFull then some cursorFull
  else if code = .pageFull then some pageFull
  else if code = .mapResized then some mapResized
  else if code = .incompatible then some incompatible
  else if code = .badRslot then some badRslot
  else if code = .badTxn then some badTxn
  else if code = .badValSize then some badValSize
  else if code = .badDbi then some badDbi
  else none

/-- The name of a condition. -/
def name : Condition → String
  | keyExist => "KeyExist"
  | notFound => "NotFound"
  | pageNotFound => "PageNotFound"
  | corrupted => "Corrupted"
  | fatal => "Panic"
  | versionMismatch => "VersionMismatch"
  | invalid => "Invalid"
  | mapFull => "MapFull"
  | dbsFull => "DbsFull"
  | readersFull => "ReadersFull"
  | tlsFull => "TlsFull"
  | txnFull => "TxnFull"
  | cursorFull => "CursorFull"
  | pageFull => "PageFull"
  | mapResized => "MapResized"
  | incompatible => "Incompatible"
  | badRslot => "BadRslot"
  | badTxn => "BadTxn"
  | badValSize => "BadValSize"
  | badDbi => "BadDbi"

/-- The sentence that describes a condition. -/
def message : Condition → String
  | keyExist => "Key/data pair already exists"
  | notFound => "No matching key/data pair found"
  | pageNotFound => "Requested page not found"
  | corrupted => "Database file is corrupted"
  | fatal => "Update of meta page failed or environment had fatal error"
  | versionMismatch => "Database environment version mismatch"
  | invalid => "File is not a valid LMDB file"
  | mapFull => "Environment mapsize limit reached"
  | dbsFull => "Environment maxdbs limit reached"
  | readersFull => "Environment maxreaders limit reached"
  | tlsFull => "Thread-local storage keys full"
  | txnFull => "Transaction has too many dirty pages"
  | cursorFull => "Too many open cursors"
  | pageFull => "Page has not enough space"
  | mapResized => "Database contents grew beyond environment mapsize"
  | incompatible => "Operation and DB incompatible, or DB flags changed"
  | badRslot => "Invalid reuse of reader locktable slot"
  | badTxn => "Transaction must abort, has a child, or is invalid"
  | badValSize => "Unsupported size of key/DB name/data, or wrong DUPFIXED size"
  | badDbi => "The specified DBI was changed unexpectedly"

/-- Looking up the code of a condition finds the condition. -/
theorem ofCode?_code (condition : Condition) : ofCode? condition.code = some condition := by
  cases condition <;> decide

/-- Different conditions have different codes. -/
@[simp]
theorem code_inj {condition other : Condition} : condition.code = other.code ↔ condition = other :=
  ⟨fun h ↦ Option.some.inj (by rw [← ofCode?_code, h, ofCode?_code]), congrArg code⟩

/-- What is found by an arm of `ofCode?` or by the arms after it has the code if those after it
do. -/
theorem code_of_arm {code own : Code} {condition found : Condition} {rest : Option Condition}
    (hown : found.code = own) (hrest : rest = some condition → condition.code = code)
    (h : (if code = own then some found else rest) = some condition) : condition.code = code := by
  by_cases hcode : code = own
  · rw [if_pos hcode] at h
    obtain rfl := Option.some.inj h
    exact hown.trans hcode.symm
  · rw [if_neg hcode] at h
    exact hrest h

/-- The condition found for a code has that code. -/
theorem code_of_ofCode? {code : Code} {condition : Condition} (h : ofCode? code = some condition) :
    condition.code = code := by
  unfold ofCode? at h
  revert h
  -- each arm compares with the code of the condition that it gives
  repeat refine code_of_arm rfl ?_
  exact nofun

end Condition

/-- The code of a system error. -/
def Code.system (number : Nat) : Code := Int32.ofNat number

end MappedStore
