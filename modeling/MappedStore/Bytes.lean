/-!
# Byte strings

Keys, values and paths are byte strings. This module holds the conversions a store needs: the
UTF-8 bytes of a text, little-endian numbers, repetition of a pattern, and the hexadecimal and
digest forms in which byte strings are reported.
-/

namespace MappedStore

/-- A byte string. -/
abbrev Bytes := List UInt8

namespace Bytes

/-- The UTF-8 encoding of a text. -/
def ofText (text : String) : Bytes :=
  text.toList.flatMap String.utf8EncodeChar

/-- The number whose little-endian digits in base 256 are the given bytes. -/
def toNat : Bytes → Nat
  | [] => 0
  | byte :: rest => byte.toNat + 256 * toNat rest

/-- The `width` lowest little-endian bytes of a number. -/
def ofNat : Nat → Nat → Bytes
  | 0, _ => []
  | width + 1, number => UInt8.ofNat number :: ofNat width (number / 256)

/-- A byte string of the given length that repeats a pattern from its start; an empty pattern
gives zeros. -/
def cycle (pattern : Bytes) (length : Nat) : Bytes :=
  if pattern.isEmpty then List.replicate length 0
  else (List.replicate (length / pattern.length + 1) pattern).flatten.take length

/-- A repeated pattern has exactly the requested length. -/
theorem length_cycle (pattern : Bytes) (length : Nat) : (cycle pattern length).length = length := by
  by_cases hempty : pattern.isEmpty = true
  · simp [cycle, hempty]
  · have hpositive : 0 < pattern.length := by
      cases pattern with
      | nil => simp at hempty
      | cons byte rest => simp
    have henough : length ≤ (length / pattern.length + 1) * pattern.length := by
      rw [Nat.add_mul, Nat.one_mul, Nat.mul_comm]
      have hsplit := Nat.div_add_mod length pattern.length
      have hrest := Nat.mod_lt length hpositive
      omega
    simp [cycle, hempty, Nat.min_eq_left henough]

/-- One hexadecimal digit in lower case. -/
def hexDigit (digit : Nat) : Char :=
  if digit < 10 then Char.ofNat (48 + digit) else Char.ofNat (87 + digit)

/-- Two lower-case hexadecimal digits per byte. -/
def toHex (bytes : Bytes) : String :=
  String.ofList (bytes.flatMap fun byte ↦ [hexDigit (byte.toNat / 16), hexDigit (byte.toNat % 16)])

/-- The 64-bit FNV-1a digest: from the offset basis, each byte is mixed in by exclusive or and
the sum is multiplied by the prime. -/
def fnv1a (bytes : Bytes) : UInt64 :=
  bytes.foldl (fun digest byte ↦ (digest ^^^ byte.toUInt64) * 0x100000001b3) 0xcbf29ce484222325

/-- The sixteen hexadecimal digits of a 64-bit word, most significant first. -/
def wordHex (word : UInt64) : String :=
  toHex (ofNat 8 word.toNat).reverse

end Bytes

end MappedStore
