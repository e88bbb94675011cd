/-
TwinRegion.Label — names of file systems, of journals and of raw volumes.

A file system is known by a label: a text of at most 64 bytes in which
the pattern of labels is found. A journal is named after its database by
a fixed ending.
-/
import TwinRegion.Pattern

namespace TwinRegion

open PatternLibrary (search)

/-! ## Labels -/

namespace Label

/-- The most bytes that a label can have. -/
def maxSize : Nat := 64

/-- The pattern of labels: an ASCII letter, then ASCII letters, digits, underscores and
hyphens. -/
def pattern : String := "^[A-Za-z][A-Za-z0-9_-]*$"

variable [PatternLibrary]

/-- A text that passes every check of a label. -/
structure Accepted (text : String) : Prop where
  isEmpty_eq : text.isEmpty = false
  size_le : text.utf8ByteSize ≤ maxSize
  search_eq : search pattern text = .ok true

end Label

/-- A name that a file system can have. -/
structure Label [PatternLibrary] where
  text : String
  accepted : Label.Accepted text

/-- The label that a text spells, or what is wrong with it. -/
def Label.ofText [PatternLibrary] (text : String) : Except Failure Label :=
  if hempty : text.isEmpty then refuse (.badLabel "name cannot be empty")
  else if hsize : maxSize < text.utf8ByteSize then
    refuse (.badLabel s!"name too long (max {maxSize} characters)")
  else
    match hsearch : search pattern text with
    | .error failure => .error failure
    | .ok false => refuse (.badLabel
      s!"name '{text}' must start with a letter and contain only letters, digits, '_' or '-'")
    | .ok true => .ok ⟨text, Bool.eq_false_iff.mpr hempty, Nat.le_of_not_lt hsize, hsearch⟩

/-! ## Journal names -/

/-- What the name of a journal adds to the name of its database. -/
def journalEnding : String := "-journal"

/-- The database's name and whether the path was its journal's. A path that is
nothing but the ending is a name of its own. -/
def splitJournalName (path : String) : String × Bool :=
  let baseLen := path.toList.length - journalEnding.toList.length
  if 0 < baseLen ∧ path.toList.drop baseLen = journalEnding.toList then
    (String.ofList (path.toList.take baseLen), true)
  else (path, false)

/-! ## Raw volumes -/

/-- The pattern of the names of raw volumes: two backslashes, a point, a backslash, a drive letter
and a colon. -/
def rawVolumePattern : String := "^\\\\\\\\\\.\\\\[A-Za-z]:$"

/-- The pattern of raw volumes is read and found in the name. -/
def namesRawVolume [PatternLibrary] (name : String) : Bool :=
  (PatternLibrary.compile? rawVolumePattern).any (PatternLibrary.isMatch · name)

end TwinRegion
