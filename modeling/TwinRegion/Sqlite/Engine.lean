/-
TwinRegion.Sqlite.Engine — what the VFS has around it in SQLite.

SQLite has a file system that it uses by itself, to which every question
about a path is passed on that is not about a blob, and it keeps some state
of its own. Neither is this program's.
-/
import TwinRegion.FileStore
import TwinRegion.Sqlite.Code

namespace TwinRegion.Sqlite

/-- A name as SQLite passes it: absent, or a path that should be UTF-8. -/
abbrev NameArg := Option Path

/-- The text of a name. -/
def NameArg.text? (name : NameArg) : Option String := name.bind Path.text?

/-- SQLite as the VFS finds it. -/
class Engine where
  /-- What SQLite keeps of its own. -/
  State : Type
  /-- What it keeps as long as nothing was done. -/
  fresh : State
  /-- What the file system below answers to a question about a path: its code, and what it stores
  through the result pointer. -/
  access (files : FileStore) (name : NameArg) (flags : Int32) : Code × Option Bool

end TwinRegion.Sqlite
