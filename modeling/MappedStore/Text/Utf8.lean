import MappedStore.Bytes

/-!
# UTF-8 decoding with exact faults

`Utf8.next` reads one encoded character and otherwise reports the ill-formed bytes at the front:
how many of them form the longest start of a character, and whether the input ended inside one.
`Utf8.decode` reads a whole text or locates its first fault, and `Utf8.chunks` splits a byte
string into characters and stray bytes.
-/

namespace MappedStore.Utf8

/-- The first fault of a byte string: the length of the valid part before it, and the number of
ill-formed bytes, or `none` if the input ends inside a character. -/
structure Fault where
  validUpTo : Nat
  badLength : Option Nat
  deriving DecidableEq, Repr

/-- What stands at the front of a nonempty byte string. -/
inductive Lead where
  | character (char : Char) (length : Nat)
  | malformed (length : Nat)
  | truncated (length : Nat)
  deriving DecidableEq

/-- A continuation byte carries six bits. -/
def isContinuation (byte : UInt8) : Bool :=
  0x80 ≤ byte && byte ≤ 0xBF

/-- The six bits of a continuation byte. -/
def payload (byte : UInt8) : Nat :=
  byte.toNat % 64

/-- The second bytes allowed after a leading byte of three or four: they exclude overlong forms,
surrogates and numbers beyond the last code point. -/
def secondRange (lead : UInt8) : UInt8 × UInt8 :=
  if lead = 0xE0 then (0xA0, 0xBF)
  else if lead = 0xED then (0x80, 0x9F)
  else if lead = 0xF0 then (0x90, 0xBF)
  else if lead = 0xF4 then (0x80, 0x8F)
  else (0x80, 0xBF)

/-- The number of bytes announced by a leading byte, if it can start a character. -/
def announced (lead : UInt8) : Option Nat :=
  if lead < 0x80 then some 1
  else if 0xC2 ≤ lead && lead ≤ 0xDF then some 2
  else if 0xE0 ≤ lead && lead ≤ 0xEF then some 3
  else if 0xF0 ≤ lead && lead ≤ 0xF4 then some 4
  else none

/-- Read the continuation bytes after a leading byte. `seen` bytes have been accepted so far and
`number` is the code point they spell. -/
def continued : Nat → Nat → Nat → Bytes → Lead
  | 0, seen, number, _ => .character (Char.ofNat number) seen
  | _ + 1, seen, _, [] => .truncated seen
  | remaining + 1, seen, number, byte :: rest =>
      if isContinuation byte then continued remaining (seen + 1) (64 * number + payload byte) rest
      else .malformed seen

/-- Classify the front of a byte string that starts with the given byte. -/
def next (lead : UInt8) (rest : Bytes) : Lead :=
  match announced lead with
  | none => .malformed 1
  | some 1 => .character (Char.ofNat lead.toNat) 1
  | some 2 => continued 1 1 (lead.toNat % 32) rest
  | some length =>
      match rest with
      | [] => .truncated 1
      | second :: rest =>
          let (low, high) := secondRange lead
          if low ≤ second && second ≤ high then
            continued (length - 2) 2
              (64 * (lead.toNat % (if length = 3 then 16 else 8)) + payload second) rest
          else .malformed 1

/-- Read `fuel` characters at most; the text read so far is kept in reverse, and `offset` is the
position of the unread part. -/
def decodeFrom : Nat → Nat → List Char → Bytes → Except Fault String
  | _, _, text, [] => .ok (String.ofList text.reverse)
  | 0, offset, _, _ :: _ => .error ⟨offset, none⟩
  | fuel + 1, offset, text, lead :: rest =>
      match next lead rest with
      | .character char length =>
          decodeFrom fuel (offset + length) (char :: text) ((lead :: rest).drop length)
      | .malformed length => .error ⟨offset, some length⟩
      | .truncated _ => .error ⟨offset, none⟩

/-- The text spelled by a byte string, or its first fault. -/
def decode (bytes : Bytes) : Except Fault String :=
  decodeFrom bytes.length 0 [] bytes

/-- A piece of a byte string: one character, or one byte that belongs to no character. -/
inductive Piece where
  | character (char : Char)
  | stray (byte : UInt8)
  deriving DecidableEq

/-- Split at most `fuel` pieces off the front. -/
def chunksFrom : Nat → Bytes → List Piece
  | _, [] => []
  | 0, _ :: _ => []
  | fuel + 1, lead :: rest =>
      match next lead rest with
      | .character char length =>
          .character char :: chunksFrom fuel ((lead :: rest).drop length)
      | .malformed length | .truncated length =>
          ((lead :: rest).take length).map .stray ++ chunksFrom fuel ((lead :: rest).drop length)

/-- The characters of a byte string, with the bytes between them that belong to none. -/
def chunks (bytes : Bytes) : List Piece :=
  chunksFrom bytes.length bytes

/-- The text of a byte string in which every maximal ill-formed run is one replacement
character. -/
def lossyFrom : Nat → Bytes → List Char
  | _, [] => []
  | 0, _ :: _ => []
  | fuel + 1, lead :: rest =>
      match next lead rest with
      | .character char length => char :: lossyFrom fuel ((lead :: rest).drop length)
      | .malformed length | .truncated length =>
          '\ufffd' :: lossyFrom fuel ((lead :: rest).drop length)

/-- The text of a byte string, with replacement characters for what is not UTF-8. -/
def lossy (bytes : Bytes) : String :=
  String.ofList (lossyFrom bytes.length bytes)

/-- The sentence that describes a fault. -/
def Fault.message (fault : Fault) : String :=
  match fault.badLength with
  | some length =>
      "invalid utf-8 sequence of " ++ toString length ++ " bytes from index "
        ++ toString fault.validUpTo
  | none => "incomplete utf-8 byte sequence from index " ++ toString fault.validUpTo

end MappedStore.Utf8
