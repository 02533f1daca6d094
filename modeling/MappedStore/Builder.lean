import MappedStore.Error
import MappedStore.Flags

/-!
# Builders

A builder collects the settings of an environment until its first open with a usable path takes
them. From then on every setter and every open is refused, whether or not that open succeeded.
-/

namespace MappedStore

/-- The settings of an environment. -/
structure Config where
  mapSize : Nat := 1048576
  maxDbs : UInt32 := 1
  maxReaders : UInt32 := 1
  mode : UInt32 := 0o664
  deriving DecidableEq, Repr

/-- The settings as text. -/
def Config.debug (config : Config) : String :=
  "EnvConfig \x7b map_size: " ++ toString config.mapSize ++ ", max_dbs: " ++ toString config.maxDbs
    ++ ", max_readers: " ++ toString config.maxReaders ++ ", mode: " ++ toString config.mode
    ++ " \x7d"

/-- The settings collected so far, or `none` once an open has taken them. -/
structure Builder where
  config : Option Config := some {}
  deriving DecidableEq, Repr

/-- Whether a byte string can name a file: it is not empty and holds no NUL. -/
def isUsablePath (path : Bytes) : Bool :=
  !path.isEmpty && !path.contains 0

namespace Builder

/-- Whether an open has taken the settings. -/
def isOpened (builder : Builder) : Bool := builder.config.isNone

/-- Change the settings, if they are still held. -/
def configure (builder : Builder) (change : Config → Config) : Except Error Builder :=
  match builder.config with
  | some config => .ok ⟨some (change config)⟩
  | none => .error .alreadyOpen

/-- Set the size of the map in bytes; 0 stands for the size that the data file records. -/
def setMapSize (builder : Builder) (size : Nat) : Except Error Builder :=
  builder.configure fun config ↦ { config with mapSize := size }

/-- Set how many named databases can be open at once. -/
def setMaxDbs (builder : Builder) (count : UInt32) : Except Error Builder :=
  builder.configure fun config ↦ { config with maxDbs := count }

/-- Set how many reader slots the environment asks for. -/
def setMaxReaders (builder : Builder) (count : UInt32) : Except Error Builder :=
  builder.configure fun config ↦ { config with maxReaders := count }

/-- Set the permission bits of the files that the open creates. -/
def setMode (builder : Builder) (mode : UInt32) : Except Error Builder :=
  builder.configure fun config ↦ { config with mode := mode }

/-- Give up the settings to an open at a path; an explicit mode overrides the configured one. A
path that cannot name a file leaves the builder as it is. -/
def take (builder : Builder) (path : Bytes) (mode : Option UInt32) :
    Except Error Config × Builder :=
  match builder.config with
  | none => (.error .alreadyOpen, builder)
  | some config =>
      if isUsablePath path then (.ok { config with mode := mode.getD config.mode }, ⟨none⟩)
      else (.error (.invalidPath path), builder)

end Builder

end MappedStore
