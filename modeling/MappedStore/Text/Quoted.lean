import MappedStore.Text.Hidden
import MappedStore.Text.Utf8

/-!
# Quoted text

Names and paths appear in messages between double quotes. A quote and a backslash are escaped by
a backslash, the four common controls have letters, a character that does not show by itself is
written by its code point, and a byte of a path that belongs to no character is written in
hexadecimal. The apostrophe stands for itself.
-/

namespace MappedStore.Text

/-- The hexadecimal digits of a number in lower case, without leading zeros. -/
def hex (number : Nat) : List Char :=
  (Nat.toDigits 16 number)

/-- One character inside quotes. -/
def escapeChar (char : Char) : List Char :=
  if char = '\x00' then ['\\', '0']
  else if char = '\t' then ['\\', 't']
  else if char = '\n' then ['\\', 'n']
  else if char = '\r' then ['\\', 'r']
  else if char = '"' then ['\\', '"']
  else if char = '\\' then ['\\', '\\']
  else if isHidden char then ['\\', 'u', '\x7b'] ++ hex char.toNat ++ ['\x7d']
  else [char]

/-- One byte that belongs to no character, as two upper-case digits. -/
def escapeByte (byte : UInt8) : List Char :=
  ['\\', 'x'] ++ (Bytes.toHex [byte]).toList.map Char.toUpper

/-- A text between quotes. -/
def quote (text : String) : String :=
  String.ofList ('"' :: text.toList.flatMap escapeChar ++ ['"'])

/-- A byte string between quotes. -/
def quoteBytes (bytes : Bytes) : String :=
  String.ofList ('"' :: (Utf8.chunks bytes).flatMap fun piece ↦
    match piece with
    | .character char => escapeChar char
    | .stray byte => escapeByte byte) ++ "\""

end MappedStore.Text
