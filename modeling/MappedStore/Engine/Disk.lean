import MappedStore.Builder
import MappedStore.Engine.Lifecycle

/-!
# Environments on disk

An environment is a data file and a lock file, in a directory or side by side. `Engine.openAt` finds
or creates them, checks the two meta pages at the front of the data file and sizes the map;
`Engine.close` leaves the committed image in the data file; `Engine.copy` writes the image to a
new data file.
-/

namespace MappedStore.Engine

open Files (Errno File Location Tree)

/-- The path of the data file of an environment. -/
def dataPath (path : Bytes) (flags : EnvFlags) : Bytes :=
  if flags.contains EnvFlags.noSubdir then path else path ++ Bytes.ofText "/data.mdb"

/-- The path of the lock file of an environment. -/
def lockPath (path : Bytes) (flags : EnvFlags) : Bytes :=
  path ++ Bytes.ofText (if flags.contains EnvFlags.noSubdir then "-lock" else "/lock.mdb")

/-! ## Meta pages -/

/-- The bytes of a meta page that a reader needs. -/
def metaSize : Nat := 152

/-- The start of a meta page: its number, the mark of a meta page, the magic number and the
version. -/
def metaHeader (number : UInt8) : Bytes :=
  [number, 0, 0, 0, 0, 0, 0, 0, 0, 0, 8, 0, 0, 0, 0, 0, 0xde, 0xc0, 0xef, 0xbe, 1, 0, 0, 0]

/-- A meta page. -/
def metaPage (number : UInt8) : Bytes :=
  metaHeader number ++ List.replicate (pageSize - (metaHeader number).length) 0

/-- The number in some bytes of a file. -/
def wordAt (file : File) (offset width : Nat) : Nat :=
  Bytes.toNat ((file.head.drop offset).take width)

/-- Check the meta page at an offset: that it is there, its mark, its magic number and its
version. -/
def checkMeta (file : File) (offset : Nat) : Except Condition Unit :=
  if file.size < offset + metaSize then .error .invalid
  else if wordAt file (offset + 10) 2 / 8 % 2 = 0 then .error .invalid
  else if (file.head.drop (offset + 16)).take 4 ≠ [0xde, 0xc0, 0xef, 0xbe] then .error .invalid
  else if wordAt file (offset + 20) 4 ≠ 1 then .error .versionMismatch
  else .ok ()

/-- The image in a data file, or `none` for an empty file. -/
def readImage (file : File) : Except Condition (Option Image) :=
  if file.size = 0 then .ok none
  else
    match checkMeta file 0 with
    | .error condition => .error condition
    | .ok () =>
        match checkMeta file pageSize with
        | .error condition => .error condition
        | .ok () => .ok (some (file.image.getD {}))

/-- A data file that holds an image. -/
def fileOf (mode : Nat) (image : Image) : File where
  mode := mode
  size := (image.lastPage + 1) * pageSize
  head := metaPage 0 ++ metaPage 1
  image := some image

/-! ## Opening -/

/-- The bytes of a lock file with the given number of reader slots. -/
def lockSize (capacity : Nat) : Nat := 192 + 64 * (capacity - 1)

/-- Open or create the lock file. Its table of reader slots is never made smaller. The answer is
the number of slots. -/
def openLock (tree : Tree) (path : Bytes) (mode readers : Nat) : Except Errno Nat × Tree :=
  match tree.openOrCreate path mode with
  | (.error errno, tree) => (.error errno, tree)
  | (.ok (location, file), tree) =>
      if file.size < lockSize readers then
        (.ok readers, tree.place location (.file (file.resize (lockSize readers))))
      else (.ok ((file.size - 192) / 64 + 1), tree)

/-- The largest map that the address space can hold. -/
def maxMapSize : Nat := 0x800000000000

/-- The size of the map: the configured one, or the recorded one if none is configured, and room
for the pages in use in any case. -/
def chosenMapSize (configured : Nat) (image : Image) : Nat :=
  max (if configured = 0 then image.mapSize else configured) ((image.lastPage + 1) * pageSize)

/-- Why a map of the given size cannot be made. A map for direct writes first sizes its file. -/
def mapFault (flags : EnvFlags) (size : Nat) : Option Errno :=
  if flags.contains EnvFlags.writeMap && size ≥ UInt64.size / 2 then some SystemText.invalidArgument
  else if size > maxMapSize then some SystemText.outOfMemory
  else none

/-- The engine on a data file that has been found, with the map sized for it. -/
def start (tree : Tree) (location : Location) (file : File) (config : Config) (flags : EnvFlags)
    (capacity : Nat) : Except Code Engine × Tree :=
  let engine (image : Image) : Except Code Engine :=
    let size := chosenMapSize config.mapSize image
    match mapFault flags size with
    | some errno => .error (.system errno)
    | none =>
        .ok
          { flags := flags
            file := location
            mapSize := size
            maxSlots := config.maxDbs.toNat + firstSlot
            capacity := capacity
            image := image }
  match readImage file with
  | .error condition => (.error condition.code, tree)
  | .ok (some image) => (engine image, tree)
  | .ok none =>
      if flags.contains EnvFlags.readOnly then (.error (.system SystemText.badDescriptor), tree)
      else
        let image : Image := { mapSize := chosenMapSize config.mapSize {} }
        (engine image, tree.place location (.file (fileOf file.mode image)))

/-- Open an environment for reading and writing: the lock file comes first, and missing files are
created. -/
def openWritable (tree : Tree) (path : Bytes) (flags : EnvFlags) (config : Config) :
    Except Code Engine × Tree :=
  let mode := Files.masked config.mode.toNat
  let readers := config.maxReaders.toNat
  let (locked, tree) :=
    if flags.contains EnvFlags.noLock then (.ok readers, tree)
    else openLock tree (lockPath path flags) mode readers
  match locked with
  | .error errno => (.error (.system errno), tree)
  | .ok capacity =>
      match tree.openOrCreate (dataPath path flags) mode with
      | (.error errno, tree) => (.error (.system errno), tree)
      | (.ok (location, file), tree) => start tree location file config flags capacity

/-- Open an environment for reading: the data file must be there, and then the lock file is opened
or created. -/
def openReadOnly (tree : Tree) (path : Bytes) (flags : EnvFlags) (config : Config) :
    Except Code Engine × Tree :=
  match tree.locate (dataPath path flags) with
  | .error errno => (.error (.system errno), tree)
  | .ok (location, node) =>
      let (locked, tree) :=
        if flags.contains EnvFlags.noLock then (.ok config.maxReaders.toNat, tree)
        else
          openLock tree (lockPath path flags) (Files.masked config.mode.toNat)
            config.maxReaders.toNat
      match locked, node with
      | .error errno, _ => (.error (.system errno), tree)
      | .ok _, .directory => (.error (.system SystemText.isDirectory), tree)
      | .ok capacity, .file file => start tree location file config flags capacity

/-- Open an environment. -/
def openAt (tree : Tree) (path : Bytes) (flags : EnvFlags) (config : Config) :
    Except Code Engine × Tree :=
  if config.maxReaders = 0 || !flags.isValid then
    (.error (.system SystemText.invalidArgument), tree)
  else if flags.contains EnvFlags.readOnly then
    openReadOnly tree path (flags.minus EnvFlags.writeMap) config
  else openWritable tree path flags config

/-! ## Closing and copying -/

/-- Leave the committed image in the data file. -/
def close (engine : Engine) (tree : Tree) : Tree :=
  match tree.node? engine.file with
  | some (.file file) =>
      tree.place engine.file
        (.file
          { file with
            size := max file.size ((engine.image.lastPage + 1) * pageSize)
            image := some engine.image })
  | _ => tree

/-- The image that a copy holds. A compacting copy counts its commits anew. -/
def copiedImage (engine : Engine) (flags : CopyFlags) : Image :=
  if flags.contains CopyFlags.compact then
    { engine.image with
      commit :=
        if engine.image.snapshot.main.isEmpty && engine.image.snapshot.main.flags.isEmpty then 0
        else 1
      mapSize := engine.mapSize }
  else engine.image

/-- Whether a copy reads the meta pages under the lock of the writer. A compacting one does not, and
without a lock file there is no such lock. -/
def copyLocks (engine : Engine) (flags : CopyFlags) : Bool :=
  !(flags.contains CopyFlags.compact || engine.flags.contains EnvFlags.noLock)

/-- Copy the committed image to a new data file under a path. The file is created first; the copy
then reads through a transaction of its own. -/
def copy (engine : Engine) (tree : Tree) (path : Bytes) (flags : CopyFlags) (thread : Nat) :
    Except Code Unit × Engine × Tree :=
  let mode := Files.masked 0o666
  match tree.createNew (dataPath path (engine.flags.inter EnvFlags.noSubdir)) { mode := mode } with
  | (.error errno, tree) => (.error (.system errno), engine, tree)
  | (.ok location, tree) =>
      match engine.beginRead thread with
      | (.error code, engine) => (.error code, engine, tree)
      | (.ok handle, engine) =>
          (.ok (), engine.abort handle,
            tree.place location (.file (fileOf mode (engine.copiedImage flags))))

end MappedStore.Engine
