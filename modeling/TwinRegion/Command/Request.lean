/-
TwinRegion.Command.Request — what the program can be asked to do.

    [-c FILE] populate BLOB [-n ROWS] [-b BATCH]
    [-c FILE] export BLOB DEST
    [-c FILE] init BLOB [--force]
    [-c FILE] inspect BLOB [-f text|json]

A table says which commands there are, what they take and what they are
for; command lines are read by it and help is written from it.
-/

namespace TwinRegion.Command

/-- How a survey is written. -/
inductive ReportForm where
  | text
  | json
  deriving DecidableEq, Repr, Inhabited

/-- What the program is asked to do. -/
inductive Action where
  | fill (blob : String) (rows batch : Nat)
  | copyOut (blob dest : String)
  | format (blob : String) (force : Bool)
  | survey (blob : String) (form : ReportForm)
  deriving DecidableEq, Repr, Inhabited

/-- An action and the file of settings that goes with it. -/
structure Request where
  config : Option String
  action : Action
  deriving DecidableEq, Repr, Inhabited

/-! ## Commands -/

/-- What the value of an option has to be. -/
inductive ValueKind where
  /-- The option has no value. -/
  | absent
  | path
  | word32
  | form
  deriving DecidableEq, Repr

/-- An option that a command knows. -/
structure OptionSpec where
  short : Option Char
  long : String
  value : ValueKind
  about : String

/-- The options of the program itself. -/
def programOptions : List OptionSpec :=
  [⟨some 'c', "config", .path, "VFS config file (TOML); defaults to name = \"HB_SQL\""⟩]

/-- A positional argument of a command. -/
structure PositionalSpec where
  name : String
  about : String

/-- A command with its options and the positional arguments that it takes. -/
structure CommandSpec where
  name : String
  about : String
  positionals : List PositionalSpec
  options : List OptionSpec

def defaultRows : Nat := 20000

def defaultBatch : Nat := 1000

def commands : List CommandSpec :=
  [⟨"populate", "Create segTable, insert rows and time the reference queries",
      [⟨"BLOB", "Blob file or raw volume (e.g. \\\\.\\H:)"⟩],
      [⟨some 'n', "rows", .word32, s!"Rows to insert [default: {defaultRows}]"⟩,
        ⟨some 'b', "batch", .word32, s!"Rows per transaction [default: {defaultBatch}]"⟩]⟩,
    ⟨"export", "Copy the database out of a blob into an ordinary SQLite file",
      [⟨"BLOB", "Blob file or raw volume"⟩, ⟨"DEST", "Destination database file"⟩], []⟩,
    ⟨"init", "Zero the header and journal blocks so the medium opens as an empty blob",
      [⟨"BLOB", "Blob file or raw volume"⟩],
      [⟨none, "force", .absent, "Required: existing data on the medium becomes unreachable"⟩]⟩,
    ⟨"inspect", "Print the header, trailer and recovered layout of a blob",
      [⟨"BLOB", "Blob file"⟩],
      [⟨some 'f', "format", .form, "[default: text] [possible values: text, json]"⟩]⟩]

end TwinRegion.Command
