/-
TwinRegion.Settings — under which name the VFS is known.

Settings are written as a TOML document that gives at most the one key
`name`. A text that the reader of TOML refuses is refused, and so is a name
that no VFS can have.
-/
import TwinRegion.FileStore
import TwinRegion.Label

namespace TwinRegion

/-- A library that reads TOML documents. -/
class TomlReader where
  /-- Reads a document into a record whose only field is `name`: the field, if the document gives
  it. There is no answer to a text that is no document, gives something else, or gives a name that
  is no text. -/
  readName? (document : String) : Option (Option String)

/-- The name that the VFS gets. -/
structure Settings where
  name : String
  deriving DecidableEq, Repr, Inhabited

namespace Settings

/-- The name of a VFS that was given none. -/
def usualLabel : String := "HB_SQL"

/-- The settings of a VFS that was given none. -/
def usual : Settings := ⟨usualLabel⟩

/-- The name as a label, if a VFS can have it. -/
def label [PatternLibrary] (settings : Settings) : Except Failure Label :=
  Label.ofText settings.name

variable [PatternLibrary] [TomlReader]

/-- The settings that a text gives. -/
def ofText (text : String) : Except Failure Settings := do
  match TomlReader.readName? text with
  | none => refuse .badSettings
  | some name =>
    let settings : Settings := ⟨name.getD usualLabel⟩
    let _ ← settings.label
    return settings

/-- The settings in a file. -/
def ofFile (store : FileStore) (path : String) : Except Failure Settings :=
  match store.fileText path with
  | .error cause => refuse (.io cause)
  | .ok text => ofText text

end Settings

end TwinRegion
