import MappedStore.Flags

/-!
# Orders of keys and values

A database keeps its keys in one of three orders, chosen by its flags, and the values of a key in
an order of their own. Two byte strings of the same length are equal in any order exactly if they
are the same.
-/

namespace MappedStore.Engine

/-- How byte strings are compared. -/
inductive Order where
  | bytewise
  | reversed
  | integer
  deriving DecidableEq, Repr

namespace Order

/-- Whether one byte string comes strictly before another, byte by byte from the front; a proper
start of a string comes before it. -/
def precedes : Bytes → Bytes → Bool
  | [], [] => false
  | [], _ :: _ => true
  | _ :: _, [] => false
  | left :: lefts, right :: rights =>
      if left = right then precedes lefts rights else left < right

/-- Whether one byte string comes strictly before another. `reversed` compares from the last byte
on, and `integer` compares little-endian numbers. -/
def lt : Order → Bytes → Bytes → Bool
  | bytewise, left, right => precedes left right
  | reversed, left, right => precedes left.reverse right.reverse
  | integer, left, right => Bytes.toNat left < Bytes.toNat right

/-- The order of the keys of a database. -/
def ofKeys (flags : DbFlags) : Order :=
  if flags.contains DbFlags.reverseKey then reversed
  else if flags.contains DbFlags.integerKey then integer
  else bytewise

/-- The order of the values of one key. -/
def ofValues (flags : DbFlags) : Order :=
  if flags.contains DbFlags.integerDup then integer
  else if flags.contains DbFlags.reverseDup then reversed
  else bytewise

end Order

end MappedStore.Engine
