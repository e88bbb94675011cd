/-
TwinRegion.FileStore — the file system as far as a blob can see it.

A `FileStore` is a tree of directories and files, whose names are strings of
bytes. Names and contents are kept apart: a place leads to a number and the
number to the contents, so a file whose name is gone lives on for whoever
has it open. There is a working directory, in which relative paths start,
and two device files: one that holds nothing and swallows everything, one
that has no room.
-/
import TwinRegion.Image
import TwinRegion.Path

namespace TwinRegion

/-- The contents behind a file number. -/
inductive FileBody where
  | regular (image : Image)
  /-- Reads meet the end at once, writes vanish. -/
  | null
  /-- Reads give zeros, writes find no room. -/
  | full
  deriving Inhabited

/-- The length that the end of a file has when it is opened. -/
def FileBody.length : FileBody → Nat
  | .regular image => image.size
  | .null | .full => 0

/-- What a name in a directory stands for. -/
inductive FileEntry where
  | directory (number : Nat)
  | file (number : Nat)
  deriving DecidableEq, Repr, Inhabited

/-- The number, which no other directory or file ever has. -/
def FileEntry.number : FileEntry → Nat
  | directory number | file number => number

/-- Directories and files by place, and contents by number. -/
structure FileStore where
  entries : Std.ExtTreeMap Place FileEntry
  bodies : Std.ExtTreeMap Nat FileBody
  nextNumber : Nat
  deriving Inhabited

namespace FileStore

/-! ## Names -/

/-- The place in which relative paths start. -/
def workingDirectory : Place := [.ofText "tmp", .ofText "work"]

/-- The longest name of an entry, in bytes. -/
def maxNameSize : Nat := 255

/-- The longest path, in bytes. -/
def maxPathSize : Nat := 4095

/-- Where a path starts. -/
def startOf (path : Path) : Place := if path.isAbsolute then [] else workingDirectory

/-- What stands at a place. -/
def entryAt (store : FileStore) (place : Place) : Option FileEntry := store.entries[place]?

/-- Follows names from a place. Every name but the last has to be a directory;
the last may be missing. -/
def follow (store : FileStore) (place : Place) : List FileName → Except Errno Place
  | [] => .ok place
  | name :: rest =>
    match store.entryAt place with
    | none => .error .noEntry
    | some (.file _) => .error .notDirectory
    | some (.directory _) =>
      if name = Path.here then store.follow place rest
      else if name = Path.up then store.follow place.dropLast rest
      else if maxNameSize < name.length then .error .nameTooLong
      else store.follow (place ++ [name]) rest

/-- The checks that a path meets before any of its names is looked up. -/
def checkPath (path : Path) : Except IoError Unit :=
  if path.bytes.contains 0 then .error .nulInPath
  else if path.bytes.isEmpty then .error (.os .noEntry)
  else if maxPathSize < path.size then .error (.os .nameTooLong)
  else .ok ()

/-- The place that a path leads to, and what stands there. A path that ends in a
slash leads to a directory or nowhere. -/
def lookUp (store : FileStore) (path : Path) : Except IoError (Place × Option FileEntry) := do
  checkPath path
  match store.follow (startOf path)
    (if path.endsInSlash then path.names ++ [Path.here] else path.names) with
  | .error errno => throw (.os errno)
  | .ok place => return (place, store.entryAt place)

/-- What stands at a path. -/
def entry? (store : FileStore) (path : Path) : Option FileEntry :=
  match store.lookUp path with
  | .ok (_, entry) => entry
  | .error _ => none

/-- Something stands at the path. -/
def pathExists (store : FileStore) (path : Path) : Bool := (store.entry? path).isSome

/-- The number of the file at the path. -/
def fileNumber? (store : FileStore) (path : Path) : Option Nat :=
  match store.entry? path with
  | some (.file number) => some number
  | _ => none

/-! ## Contents -/

/-- The contents behind a number. -/
def body (store : FileStore) (number : Nat) : FileBody :=
  store.bodies[number]?.getD (.regular .empty)

def setBody (store : FileStore) (number : Nat) (body : FileBody) : FileStore :=
  { store with bodies := store.bodies.insert number body }

/-- The bytes behind a number; a device file has none. -/
def image (store : FileStore) (number : Nat) : Image :=
  match store.body number with
  | .regular image => image
  | .null | .full => .empty

/-- A new file with these contents and without a name. -/
def createUnnamed (store : FileStore) (body : FileBody) : Nat × FileStore :=
  (store.nextNumber,
    { store with
      bodies := store.bodies.insert store.nextNumber body
      nextNumber := store.nextNumber + 1 })

/-- Gives a place a new file with these contents. -/
def create (store : FileStore) (place : Place) (body : FileBody) : Nat × FileStore :=
  let (number, store) := store.createUnnamed body
  (number, { store with entries := store.entries.insert place (.file number) })

/-- Gives a place a new directory. -/
def createDirectory (store : FileStore) (place : Place) : FileStore :=
  { store with
    entries := store.entries.insert place (.directory store.nextNumber)
    nextNumber := store.nextNumber + 1 }

/-- A tree with an empty working directory and the two device files. -/
def initial : FileStore :=
  let devices : Place := [.ofText "dev"]
  let directories := [[], [.ofText "tmp"], workingDirectory, devices].foldl createDirectory ⟨∅, ∅, 0⟩
  ((directories.create (devices ++ [.ofText "null"]) .null).2.create
    (devices ++ [.ofText "full"]) .full).2

/-- Opens a file for reading and writing and makes it if it is missing. A path that ends
in a slash is refused before its last name is looked at, if the way there is open. -/
def openFile (store : FileStore) (path : Path) : Except IoError (Nat × FileStore) := do
  checkPath path
  let slash := path.endsInSlash
  match store.follow (startOf path)
    (if slash then path.names.dropLast ++ [Path.here] else path.names) with
  | .error errno => throw (.os errno)
  | .ok place =>
    if slash then throw (.os .isDirectory)
    match store.entryAt place with
    | some (.directory _) => throw (.os .isDirectory)
    | some (.file number) => return (number, store)
    | none => return store.create place (.regular .empty)

/-- Opens what stands at a path and leaves the tree as it is. A directory can be opened
only to be read. -/
def openExisting (store : FileStore) (path : Path) (write : Bool) :
    Except IoError FileEntry := do
  match ← store.lookUp path with
  | (_, none) => throw (.os .noEntry)
  | (_, some (.directory number)) =>
    if write then throw (.os .isDirectory) else return .directory number
  | (_, some entry) => return entry

/-- The whole contents of a file. -/
def fileBytes (store : FileStore) (path : Path) : Except IoError Bytes := do
  match ← store.lookUp path with
  | (_, none) => throw (.os .noEntry)
  | (_, some (.directory _)) => throw (.os .isDirectory)
  | (_, some (.file number)) =>
    let image := store.image number
    return image.read 0 image.size

/-- The whole contents of a file, as text. -/
def fileText (store : FileStore) (path : Path) : Except IoError String := do
  match String.fromUTF8? ⟨← store.fileBytes path⟩ with
  | some text => return text
  | none => throw .notUtf8

/-! ## Changes from outside -/

/-- Puts a file of these contents at the path. A file that is there keeps its number. -/
def putFile (store : FileStore) (path : Path) (image : Image) : FileStore :=
  match store.lookUp path with
  | .ok (_, some (.file number)) => store.setBody number (.regular image)
  | .ok (place, none) => (store.create place (.regular image)).2
  | _ => store

/-- Makes a directory at the path. -/
def makeDirectory (store : FileStore) (path : Path) : FileStore :=
  match store.lookUp path with
  | .ok (place, none) => store.createDirectory place
  | _ => store

/-- Takes a name away; the contents stay. -/
def removeName (store : FileStore) (path : Path) : FileStore :=
  match store.lookUp path with
  | .ok (place, some _) => { store with entries := store.entries.erase place }
  | _ => store

end FileStore

end TwinRegion
