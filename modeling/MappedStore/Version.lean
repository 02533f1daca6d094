import MappedStore.Text.Quoted

/-!
# Engine version

The version that the engine reports, as numbers and as a banner.
-/

namespace MappedStore

/-- A version of the engine. -/
structure Version where
  major : Nat
  minor : Nat
  patch : Nat
  banner : String
  deriving DecidableEq, Repr

namespace Version

/-- The engine in use. -/
def current : Version := ⟨0, 9, 21, "LMDB 0.9.21: (June 1, 2017)"⟩

/-- The three numbers between points. -/
def display (version : Version) : String :=
  toString version.major ++ "." ++ toString version.minor ++ "." ++ toString version.patch

/-- A version with its fields. -/
def debug (version : Version) : String :=
  "Version \x7b major: " ++ toString version.major ++ ", minor: " ++ toString version.minor
    ++ ", patch: " ++ toString version.patch ++ ", banner: " ++ Text.quote version.banner ++ " \x7d"

end Version

end MappedStore
