import MappedStore.Flags

/-!
# Database handles

A handle names a database by its slot, by the generation of the open that first produced it, and
by its environment. Slots are reused, so a handle whose open was undone is told apart from a later
one by its generation.
-/

namespace MappedStore

/-- The number of an environment within a process, from zero. -/
abbrev EnvId := Nat

/-- The number of a transaction within a process, from zero. -/
abbrev TxnId := Nat

/-- The number of an environment as users see it, from one. -/
def EnvId.ordinal (env : EnvId) : Nat := env + 1

/-- A handle to the main database, which has no name, or to a named one. -/
structure Database where
  slot : Nat
  generation : Nat
  env : EnvId
  name : Option String
  flags : DbFlags
  deriving DecidableEq, Repr

/-- An optional name as text. -/
def debugName : Option String → String
  | none => "None"
  | some name => "Some(" ++ Text.quote name ++ ")"

/-- A handle with its fields. -/
def Database.debug (database : Database) : String :=
  "Database \x7b dbi: " ++ toString database.slot ++ ", generation: "
    ++ toString database.generation ++ ", env_id: " ++ toString database.env.ordinal ++ ", name: "
    ++ debugName database.name ++ ", flags: " ++ database.flags.debug ++ " \x7d"

end MappedStore
