import MappedStore.Error

/-!
# Values

A value is the byte string found under a key. It can be read as text, and as little-endian words
of 32 and 64 bits at any 64-bit offset. A read whose end overflows the offset or lies past the
value is refused.
-/

namespace MappedStore

/-- The bytes found under a key. -/
structure Value where
  data : Bytes
  deriving DecidableEq, Repr

namespace Value

/-- The number of bytes. -/
def length (value : Value) : Nat := value.data.length

/-- Whether there are no bytes. -/
def isEmpty (value : Value) : Bool := value.data.isEmpty

/-- The first byte, if there is one. -/
def first (value : Value) : Option UInt8 := value.data.head?

/-- The text that the bytes encode. -/
def asText (value : Value) : Except Error String :=
  match Utf8.decode value.data with
  | .ok text => .ok text
  | .error fault => .error (.utf8 fault)

/-- The sum of an offset and a width, unless it needs more than 64 bits. -/
def checkedEnd (offset : UInt64) (width : Nat) : Option Nat :=
  if offset.toNat + width < UInt64.size then some (offset.toNat + width) else none

/-- The bytes from `start` up to `stop`, if both lie within the byte string. -/
def slice (data : Bytes) (start stop : Nat) : Option Bytes :=
  if start ≤ stop ∧ stop ≤ data.length then some ((data.drop start).take (stop - start)) else none

/-- The `width` bytes at an offset. -/
def window (value : Value) (offset : UInt64) (width : Nat) : Except Error Bytes :=
  match (checkedEnd offset width).bind (slice value.data offset.toNat) with
  | some bytes => .ok bytes
  | none => .error (.outOfBounds offset.toNat width value.length)

/-- The 32-bit little-endian word at an offset. -/
def readU32 (value : Value) (offset : UInt64) : Except Error UInt32 :=
  (value.window offset 4).map fun bytes ↦ UInt32.ofNat (Bytes.toNat bytes)

/-- The 64-bit little-endian word at an offset. -/
def readU64 (value : Value) (offset : UInt64) : Except Error UInt64 :=
  (value.window offset 8).map fun bytes ↦ UInt64.ofNat (Bytes.toNat bytes)

/-- The value as text: its bytes as decimal numbers. -/
def debug (value : Value) : String :=
  "Value \x7b data: [" ++ ", ".intercalate (value.data.map fun byte ↦ toString byte.toNat)
    ++ "] \x7d"

end Value

end MappedStore
