import MappedStore.Engine.Image
import MappedStore.Error.SystemText

/-!
# File trees

A file tree is the part of a file system that environments live in: directories, and files with
permission bits, a size and the first bytes of their content. A file written by the engine also
carries its image. Paths are byte strings and are resolved component by component, as a system
call resolves them; `Tree.locate` finds what a path names and `Tree.target` the place where it
would create something.
-/

namespace MappedStore.Files

open MappedStore.Engine (Image)

/-- The number of leading bytes of a file that the tree keeps: two pages of a data file. -/
def headSize : Nat := 8192

/-- A regular file. -/
structure File where
  mode : Nat
  size : Nat := 0
  head : Bytes := []
  image : Option Image := none
  deriving DecidableEq, Repr

namespace File

/-- A file with the given content. -/
def ofBytes (mode : Nat) (data : Bytes) : File where
  mode := mode
  size := data.length
  head := data.take headSize

/-- The kept bytes of a file, extended by zeros to a given length. -/
def padded (file : File) (length : Nat) : Bytes :=
  file.head ++ List.replicate (length - file.head.length) 0

/-- Write bytes over a file from an offset on. -/
def patch (file : File) (offset : Nat) (data : Bytes) : File :=
  { file with
    size := max file.size (offset + data.length)
    head := ((file.padded offset).take offset ++ data
      ++ file.head.drop (offset + data.length)).take headSize }

/-- Cut or extend a file to a length. -/
def resize (file : File) (length : Nat) : File :=
  { file with
    size := length
    head := (file.padded (min length headSize)).take (min length headSize)
    image := if length = 0 then none else file.image }

end File

/-- What a directory entry leads to. -/
inductive Node where
  | directory
  | file (file : File)
  deriving DecidableEq, Repr

/-- A place in a tree: the names on the way to it from the top. -/
abbrev Location := List Bytes

/-- The entries below the top directory. -/
structure Tree where
  entries : List (Location × Node) := []
  deriving DecidableEq, Repr

/-- The number of a system error. -/
abbrev Errno := Nat

/-- The longest name of a directory entry. -/
def maxNameLength : Nat := 255

/-- The longest path. -/
def maxPathLength : Nat := 4095

/-- The parts of a path between slashes, without empty ones. -/
def components (path : Bytes) : List Bytes :=
  (path.splitOn 47).filter (!·.isEmpty)

/-- The name of the directory that a path starts from. -/
def here : Bytes := [46]

/-- The name of the directory above. -/
def above : Bytes := [46, 46]

namespace Tree

/-- What lies at a place; the top is a directory. -/
def node? (tree : Tree) (location : Location) : Option Node :=
  if location.isEmpty then some .directory else tree.entries.lookup location

/-- A tree with something placed at a location. -/
def place (tree : Tree) (location : Location) (node : Node) : Tree :=
  ⟨(location, node) :: tree.entries.filter (·.1 ≠ location)⟩

/-- A tree without what lies at a location. -/
def remove (tree : Tree) (location : Location) : Tree :=
  ⟨tree.entries.filter (·.1 ≠ location)⟩

/-- The names in a directory. -/
def children (tree : Tree) (location : Location) : List Bytes :=
  tree.entries.filterMap fun entry ↦
    if entry.1.length = location.length + 1 && location.isPrefixOf entry.1 then entry.1.getLast?
    else none

/-- Follow the components of a path from a place. Every component but the last must be a
directory. -/
def walk (tree : Tree) : Location → List Bytes → Except Errno Location
  | location, [] => .ok location
  | location, name :: rest =>
      if name = here then walk tree location rest
      else if name = above then walk tree location.dropLast rest
      else if name.length > maxNameLength then .error SystemText.nameTooLong
      else
        match tree.node? (location ++ [name]) with
        | none => .error SystemText.noEntry
        | some .directory => walk tree (location ++ [name]) rest
        | some (.file _) =>
            if rest.isEmpty then .ok (location ++ [name]) else .error SystemText.notDirectory

/-- What a path names. A path that ends in a slash names a directory. -/
def locate (tree : Tree) (path : Bytes) : Except Errno (Location × Node) :=
  if path.isEmpty then .error SystemText.noEntry
  else if path.length > maxPathLength then .error SystemText.nameTooLong
  else
    match walk tree [] (components path ++ (if path.getLast? = some 47 then [here] else [])) with
    | .error errno => .error errno
    | .ok location =>
        match tree.node? location with
        | some node => .ok (location, node)
        | none => .error SystemText.noEntry

/-- The place that a path names, whether or not something lies there yet. All of the path before
its last component must name a directory. -/
def target (tree : Tree) (path : Bytes) : Except Errno (Location × Option Node) :=
  if path.isEmpty then .error SystemText.noEntry
  else if path.length > maxPathLength then .error SystemText.nameTooLong
  else
    match walk tree [] ((components path).dropLast ++ [here]) with
    | .error errno => .error errno
    | .ok directory =>
        match (components path).getLast? with
        | none => .ok ([], some .directory)
        | some name =>
            if name = here then .ok (directory, some .directory)
            else if name = above then .ok (directory.dropLast, some .directory)
            else if name.length > maxNameLength then .error SystemText.nameTooLong
            else .ok (directory ++ [name], tree.node? (directory ++ [name]))

/-- Whether a path names a directory. -/
def isDirectory (tree : Tree) (path : Bytes) : Bool :=
  match tree.locate path with
  | .ok (_, .directory) => true
  | _ => false

/-- Make one directory. -/
def makeDirectory (tree : Tree) (path : Bytes) : Except Errno Tree :=
  match tree.target path with
  | .error errno => .error errno
  | .ok (_, some _) => .error SystemText.alreadyExists
  | .ok (location, none) => .ok (tree.place location .directory)

/-- A path without its last component, leaving out components that stay in place. -/
def parentPath (path : Bytes) : Option Bytes :=
  match ((components path).filter (· ≠ here)).reverse with
  | [] => none
  | _ :: rest => some ([47].intercalate rest.reverse)

/-- Make a directory and those above it that are missing; `fuel` bounds how many. A directory that
exists is kept. -/
def makeDirectories (fuel : Nat) (tree : Tree) (path : Bytes) : Except Errno Unit × Tree :=
  if path.isEmpty then (.ok (), tree)
  else
    match tree.makeDirectory path with
    | .ok tree => (.ok (), tree)
    | .error errno =>
        if errno ≠ SystemText.noEntry then
          (if tree.isDirectory path then .ok () else .error errno, tree)
        else
          match fuel, parentPath path with
          | 0, _ | _, none => (.error errno, tree)
          | fuel + 1, some parent =>
              match makeDirectories fuel tree parent with
              | (.error errno, tree) => (.error errno, tree)
              | (.ok (), tree) =>
                  match tree.makeDirectory path with
                  | .ok tree => (.ok (), tree)
                  | .error errno =>
                      (if tree.isDirectory path then .ok () else .error errno, tree)

/-- Make a directory with all above it. -/
def makePath (tree : Tree) (path : Bytes) : Except Errno Unit × Tree :=
  makeDirectories (components path).length tree path

/-- Open a file for writing and create it, empty, if it is missing. -/
def openOrCreate (tree : Tree) (path : Bytes) (mode : Nat) :
    Except Errno (Location × File) × Tree :=
  match tree.target path with
  | .error errno => (.error errno, tree)
  | .ok (_, some .directory) => (.error SystemText.isDirectory, tree)
  | .ok (location, some (.file file)) =>
      (if path.getLast? = some 47 then .error SystemText.notDirectory else .ok (location, file),
        tree)
  | .ok (location, none) =>
      if path.getLast? = some 47 then (.error SystemText.isDirectory, tree)
      else
        let file : File := { mode := mode }
        (.ok (location, file), tree.place location (.file file))

/-- Open an existing file. A directory is refused only when it is to be written. -/
def openExisting (tree : Tree) (path : Bytes) : Except Errno (Location × File) :=
  match tree.locate path with
  | .error errno => .error errno
  | .ok (_, .directory) => .error SystemText.isDirectory
  | .ok (location, .file file) => .ok (location, file)

/-- Create a file that must not exist yet. -/
def createNew (tree : Tree) (path : Bytes) (file : File) : Except Errno Location × Tree :=
  match tree.target path with
  | .error errno => (.error errno, tree)
  | .ok (_, some _) => (.error SystemText.alreadyExists, tree)
  | .ok (location, none) => (.ok location, tree.place location (.file file))

end Tree

/-- Permission bits as they are recorded under the usual mask of group and other write access. -/
def masked (mode : Nat) : Nat := mode &&& 0o7755

/-- The name of a kind of file error. -/
def errnoName (errno : Errno) : String :=
  if errno = SystemText.noEntry then "NotFound"
  else if errno = SystemText.denied then "PermissionDenied"
  else if errno = SystemText.alreadyExists then "AlreadyExists"
  else if errno = SystemText.notDirectory then "NotADirectory"
  else if errno = SystemText.isDirectory then "IsADirectory"
  else if errno = SystemText.invalidArgument then "InvalidInput"
  else if errno = SystemText.nameTooLong then "InvalidFilename"
  else "Uncategorized"

end MappedStore.Files
