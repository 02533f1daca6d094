import MappedStore.Text.Blank
import MappedStore.Text.Utf8

/-!
# The switch for courtesy checks

Some checks only give a friendlier error than the engine would: the size of a key, whether a
handle is retained, and writes through something read-only. A process can switch them off by an
environment variable, which it consults once. Checks that guard memory run regardless.
-/

namespace MappedStore.Checks

/-- The environment variable that a process consults. -/
def variableName : String := "LUMODB_DISABLE_CHECKS"

/-- Whether a value of the variable switches the checks off. -/
def disables (value : String) : Bool :=
  ["1", "true", "yes"].contains (Text.lowerAscii (Text.trim value))

/-- Whether the checks run in a process whose variable holds the given bytes. A variable that is
unset or is not text leaves them on. -/
def enabled (setting : Option Bytes) : Bool :=
  match setting with
  | none => true
  | some bytes =>
      match Utf8.decode bytes with
      | .ok value => !disables value
      | .error _ => true

end MappedStore.Checks
