/-
TwinRegion.Path — paths and places.

A path is a string of bytes, which need not be text: the machine knows no
byte of it but the slash between names, the dot, and NUL, which cannot be
part of it. A place is where a path leads: the names on the way from the
root.
-/
import TwinRegion.Bytes

namespace TwinRegion

/-- A path as the machine takes it. -/
structure Path where
  bytes : List UInt8
  deriving DecidableEq, Repr, Inhabited

/-- A name in a directory. -/
abbrev FileName := List UInt8

/-- A place in the tree: the names that lead to it from the root. -/
abbrev Place := List FileName

/-- The bytes of a text. -/
def FileName.ofText (text : String) : FileName := text.toUTF8.toList

namespace Path

/-- The path that a text spells. -/
def ofText (text : String) : Path := ⟨FileName.ofText text⟩

instance : Coe String Path := ⟨ofText⟩

/-- The text that a path is, if it is any. -/
def text? (path : Path) : Option String := String.fromUTF8? ⟨path.bytes.toArray⟩

def size (path : Path) : Nat := path.bytes.length

/-- The byte between names. -/
def slash : UInt8 := 0x2f

/-- The name that stays in a directory. -/
def here : FileName := FileName.ofText "."

/-- The name that leaves a directory. -/
def up : FileName := FileName.ofText ".."

/-- The path starts at the root. -/
def isAbsolute (path : Path) : Bool := path.bytes.head? == some slash

def endsInSlash (path : Path) : Bool := path.bytes.getLast? == some slash

/-- The names along a path. -/
def names (path : Path) : List FileName :=
  (path.bytes.splitOn slash).filter fun name => ¬ name.isEmpty

/-- The path ends in a slash behind a name of its own, so it can only be a directory's. -/
def asksForDirectory (path : Path) : Bool :=
  path.endsInSlash && path.names.getLast?.any fun name => name ≠ here && name ≠ up

end Path

namespace Place

/-- The absolute path of a place. -/
def path (place : Place) : Path := ⟨place.flatMap (Path.slash :: ·)⟩

end Place

end TwinRegion
