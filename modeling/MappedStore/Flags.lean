import MappedStore.Text.Quoted

/-!
# Flag sets

Five kinds of option sets are passed to the store, each a 32-bit word of named bits. `Flags kind`
is such a word, so sets of different kinds cannot be mixed. Bits outside the declared members may
be present: they are kept, and shown in hexadecimal after the names.
-/

namespace MappedStore

/-- The kinds of option sets. -/
inductive FlagKind where
  | environment
  | database
  | write
  | transaction
  | copy
  deriving DecidableEq, Repr

namespace FlagKind

/-- The declared members of a kind, in declaration order. -/
def members : FlagKind → List (String × UInt32)
  | environment =>
      [("FIXEDMAP", 0x01), ("NOSUBDIR", 0x4000), ("NOSYNC", 0x10000), ("RDONLY", 0x20000),
        ("NOMETASYNC", 0x40000), ("WRITEMAP", 0x80000), ("MAPASYNC", 0x100000),
        ("NOTLS", 0x200000), ("NOLOCK", 0x400000), ("NORDAHEAD", 0x800000),
        ("NOMEMINIT", 0x1000000)]
  | database =>
      [("REVERSEKEY", 0x02), ("DUPSORT", 0x04), ("INTEGERKEY", 0x08), ("DUPFIXED", 0x10),
        ("INTEGERDUP", 0x20), ("REVERSEDUP", 0x40), ("CREATE", 0x40000)]
  | write =>
      [("NOOVERWRITE", 0x10), ("NODUPDATA", 0x20), ("CURRENT", 0x40), ("RESERVE", 0x10000),
        ("APPEND", 0x20000), ("APPENDDUP", 0x40000), ("MULTIPLE", 0x80000)]
  | transaction => [("RDONLY", 0x20000), ("NOSYNC", 0x10000), ("NOMETASYNC", 0x40000)]
  | copy => [("COMPACT", 0x01)]

/-- The name of a kind, as it is shown before the members of a set. -/
def title : FlagKind → String
  | environment => "EnvFlags"
  | database => "DbFlags"
  | write => "WriteFlags"
  | transaction => "TxnFlags"
  | copy => "CopyFlags"

end FlagKind

/-- A set of options of one kind. -/
structure Flags (kind : FlagKind) where
  bits : UInt32 := 0
  deriving DecidableEq, Repr

/-- Options of an environment. -/
abbrev EnvFlags := Flags .environment

/-- Options of a database. -/
abbrev DbFlags := Flags .database

/-- Options of a write. -/
abbrev WriteFlags := Flags .write

/-- Options of a transaction. -/
abbrev TxnFlags := Flags .transaction

/-- Options of a copy. -/
abbrev CopyFlags := Flags .copy

namespace Flags

variable {kind : FlagKind}

/-- The empty set. -/
def empty : Flags kind := ⟨0⟩

/-- The set of all declared members. -/
def all (kind : FlagKind) : Flags kind :=
  ⟨kind.members.foldl (fun bits member ↦ bits ||| member.2) 0⟩

/-- The members of either set. -/
def union (left right : Flags kind) : Flags kind := ⟨left.bits ||| right.bits⟩

/-- The members of both sets. -/
def inter (left right : Flags kind) : Flags kind := ⟨left.bits &&& right.bits⟩

/-- The members of the first set that are not in the second. -/
def minus (left right : Flags kind) : Flags kind := ⟨left.bits &&& ~~~right.bits⟩

/-- The members of exactly one of the sets. -/
def xor (left right : Flags kind) : Flags kind := ⟨left.bits ^^^ right.bits⟩

/-- A set without its undeclared bits. -/
def truncate (flags : Flags kind) : Flags kind := flags.inter (all kind)

/-- The declared members that are not in the set. -/
def complement (flags : Flags kind) : Flags kind := ⟨~~~flags.bits⟩ |> truncate

/-- Whether every member of the second set is in the first. -/
def contains (flags other : Flags kind) : Bool := flags.bits &&& other.bits == other.bits

/-- Whether the sets share a member. -/
def intersects (flags other : Flags kind) : Bool := flags.bits &&& other.bits != 0

/-- Whether the set has no bits. -/
def isEmpty (flags : Flags kind) : Bool := flags.bits == 0

/-- Whether the set holds every declared member. -/
def isAll (flags : Flags kind) : Bool := flags.contains (all kind)

/-- Whether the set has no undeclared bits. -/
def isValid (flags : Flags kind) : Bool := (flags.minus (all kind)).isEmpty

/-- Taking members away is no concern of the others. -/
theorem contains_minus (flags : Flags kind) {other flag : Flags kind} (h : flag.minus other = flag) :
    (flags.minus other).contains flag = flags.contains flag := by
  have hbits : flag.bits &&& ~~~other.bits = flag.bits := congrArg Flags.bits h
  unfold contains minus
  rw [UInt32.and_assoc, UInt32.and_comm _ flag.bits, hbits]

/-- What a set has in common with another one contains the other exactly if the set does. -/
theorem contains_inter_self (flags other : Flags kind) :
    (flags.inter other).contains other = flags.contains other := by
  unfold contains inter
  rw [UInt32.and_assoc, UInt32.and_self]

/-- The declared members of the set, in declaration order. -/
def names (flags : Flags kind) : List String :=
  (kind.members.filter fun member ↦ flags.contains ⟨member.2⟩).map (·.1)

/-- The set whose members have the given names; unknown names are ignored. -/
def ofNames (names : List String) : Flags kind :=
  ⟨(kind.members.filter fun member ↦ names.contains member.1).foldl
    (fun bits member ↦ bits ||| member.2) 0⟩

/-- A number in hexadecimal with its mark. -/
def hexNumber (number : UInt32) : String :=
  "0x" ++ String.ofList (Text.hex number.toNat)

/-- The set as text: its kind, then its members between bars with the undeclared bits last. -/
def debug (flags : Flags kind) : String :=
  let rest := (flags.minus (all kind)).bits
  let parts := flags.names ++ (if rest = 0 then [] else [hexNumber rest])
  kind.title ++ "(" ++ (if parts.isEmpty then "0x0" else " | ".intercalate parts) ++ ")"

end Flags

namespace EnvFlags

/-- The path names the data file itself, not a directory. -/
def noSubdir : EnvFlags := ⟨0x4000⟩

/-- Commits are not flushed to disk. -/
def noSync : EnvFlags := ⟨0x10000⟩

/-- Nothing is written. -/
def readOnly : EnvFlags := ⟨0x20000⟩

/-- Writes go to the map directly. -/
def writeMap : EnvFlags := ⟨0x80000⟩

/-- Reader slots belong to transactions instead of threads. -/
def noTls : EnvFlags := ⟨0x200000⟩

/-- There is no lock file. -/
def noLock : EnvFlags := ⟨0x400000⟩

end EnvFlags

namespace DbFlags

/-- Keys are compared from their ends. -/
def reverseKey : DbFlags := ⟨0x02⟩

/-- A key may have several values, which are sorted. -/
def dupSort : DbFlags := ⟨0x04⟩

/-- Keys are native integers. -/
def integerKey : DbFlags := ⟨0x08⟩

/-- All values of a key have one size. -/
def dupFixed : DbFlags := ⟨0x10⟩

/-- Values are native integers. -/
def integerDup : DbFlags := ⟨0x20⟩

/-- Values are compared from their ends. -/
def reverseDup : DbFlags := ⟨0x40⟩

/-- The database is created if it is absent. -/
def create : DbFlags := ⟨0x40000⟩

/-- The part of the flags that is stored with a database. -/
def persistent (flags : DbFlags) : DbFlags := flags.inter ⟨0x7fff⟩

end DbFlags

namespace WriteFlags

/-- A key that is there already is refused. -/
def noOverwrite : WriteFlags := ⟨0x10⟩

/-- A pair that is there already is refused. -/
def noDupData : WriteFlags := ⟨0x20⟩

/-- A buffer is asked for instead of a copy of a value. -/
def reserve : WriteFlags := ⟨0x10000⟩

/-- The key comes after all others. -/
def append : WriteFlags := ⟨0x20000⟩

/-- The value comes after all others of its key. -/
def appendDup : WriteFlags := ⟨0x40000⟩

/-- The flags that the engine accepts for a write. -/
def accepted : WriteFlags :=
  (((noOverwrite.union noDupData).union reserve).union append).union appendDup

end WriteFlags

namespace TxnFlags

/-- The transaction only reads. -/
def readOnly : TxnFlags := ⟨0x20000⟩

end TxnFlags

namespace CopyFlags

/-- Pages that are not in use are left out. -/
def compact : CopyFlags := ⟨0x01⟩

end CopyFlags

end MappedStore
