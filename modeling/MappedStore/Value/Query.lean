import MappedStore.Value

/-!
# Questions about a value

A reader can ask a value for its length, its bytes, its text, the words in it, and whether it
equals another.
-/

namespace MappedStore.Value

/-- A question about a value. -/
inductive Query where
  | length
  | isEmpty
  | bytes
  | first
  | text
  | word32 (offset : UInt64)
  | word64 (offset : UInt64)
  | debug
  | equals (other : Bytes)
  deriving DecidableEq, Repr

/-- The answer to a question about a value. -/
inductive Reading where
  | number (number : Nat)
  | truth (truth : Bool)
  | bytes (data : Bytes)
  | byte (byte : Option UInt8)
  | text (text : String)
  deriving DecidableEq, Repr

/-- Answer a question. -/
def ask (value : Value) : Query → Except Error Reading
  | .length => .ok (.number value.length)
  | .isEmpty => .ok (.truth value.isEmpty)
  | .bytes => .ok (.bytes value.data)
  | .first => .ok (.byte value.first)
  | .text => value.asText.map .text
  | .word32 offset => (value.readU32 offset).map fun word ↦ .number word.toNat
  | .word64 offset => (value.readU64 offset).map fun word ↦ .number word.toNat
  | .debug => .ok (.text value.debug)
  | .equals other => .ok (.truth (value.data = other))

end MappedStore.Value
