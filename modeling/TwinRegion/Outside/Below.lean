/-
TwinRegion.Outside.Below — the file system that SQLite uses by itself.

Whatever is not about blobs is left to it: working out absolute paths, most
questions about a path, randomness and time. To it a path is a string of
bytes. It can also open databases of its own, each in a file of the machine;
what SQLite can do with those is in `PlainFile`.
-/
import TwinRegion.Sqlite.Engine

namespace TwinRegion.Sqlite

namespace Below

/-- The name that it goes by. -/
def vfsName : String := "unix"

/-- The version of its methods: with system call overrides. -/
def version : Nat := 3
def systemCalls : Bool := true
def isDefault : Bool := true

/-! ## Paths -/

/-- The longest path that SQLite takes, in bytes. -/
def maxPathname : Nat := 512

/-- Follows names by their letters alone: a name need not be there, but it must not
be put below a file, and the path must not get too long on the way. -/
def fullPlace (files : FileStore) (place : Place) : List FileName → Option Place
  | [] => some place
  | name :: rest =>
    if name = Path.here then fullPlace files place rest
    else if name = Path.up then fullPlace files place.dropLast rest
    else if maxPathname ≤ (Place.path (place ++ [name])).size then none
    else
      match files.follow [] (place ++ [name]) with
      | .ok _ | .error .noEntry => fullPlace files (place ++ [name]) rest
      | .error _ => none

/-- The absolute form of a path; the root itself has none. -/
def xFullPathname (files : FileStore) (path : Path) : Code × Path :=
  match fullPlace files (FileStore.startOf path) path.names with
  | none | some [] => (.cannotOpen, "")
  | some place => (.ok, place.path)

/-- Answers a question about a path. A regular file exists only if there is something
in it; any other question is whether the path may be used, and that it may if
something is there. -/
def xAccess (files : FileStore) (name : NameArg) (flags : Int32) : Bool :=
  match name.bind files.entry? with
  | some (.directory _) => true
  | some (.file number) =>
    match files.body number with
    | .regular image => flags ≠ accessExists || 0 < image.size
    | .null | .full => true
  | none => false

/-- Removes a file. -/
def xDelete (files : FileStore) : NameArg → Code × FileStore
  | none => (.ioDelete, files)
  | some path =>
    match files.lookUp path with
    | .ok (_, some (.file _)) => (.ok, files.removeName path)
    | .ok (_, none) | .error (.os .noEntry) => (.ioDeleteNoEntry, files)
    | _ => (.ioDelete, files)

/-! ## Other services -/

/-- How many random bytes are given. -/
def xRandomness (wanted : Nat) : Nat := wanted

/-- How many microseconds the process slept. -/
def xSleep (microseconds : Nat) : Nat := microseconds

def xCurrentTime : Code := .ok

end Below

end TwinRegion.Sqlite
