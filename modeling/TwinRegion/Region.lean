/-
TwinRegion.Region — the two files that share a blob.

A blob holds a database and that database's rollback journal. Everything
else in the library asks which of the two it is dealing with.
-/

namespace TwinRegion

/-- One of the two files kept in a blob. -/
inductive Region where
  | database
  | journal
  deriving DecidableEq, Repr, Inhabited

namespace Region

/-- The region's name as it appears in messages. -/
def text : Region → String
  | database => "database"
  | journal => "journal"

end Region

end TwinRegion
