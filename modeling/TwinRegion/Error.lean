/-
TwinRegion.Error — what can go wrong.

Two things end a computation early. It is REFUSED when a rule of the
library or the medium says no: that is an `Error`, one constructor per
cause, and `Error.message` is the only place that words it. It hits a
FAULT when it has no right answer at all, as when a sum leaves 64 bits:
that is a `Fault`, and nothing in the library answers to one.
-/
import TwinRegion.Region

namespace TwinRegion

/-! ## Faults -/

/-- A step that has no result at all: arithmetic that leaves 64 bits, a range or a
file that is not there. -/
inductive Fault where
  | addOverflow
  | subOverflow
  | mulOverflow
  | divideByZero
  | remainderByZero
  /-- A range that reaches past the end of the bytes it is cut from. -/
  | outOfRange
  /-- More bytes than memory has addresses for. -/
  | tooLarge
  /-- A file that was opened through a registration which is gone. -/
  | dangling
  /-- A pattern of the program's own that the library of patterns does not read. -/
  | badPattern
  deriving DecidableEq, Repr, Inhabited

/-- The wording of an arithmetic fault; the others have none. -/
def Fault.message? : Fault → Option String
  | .addOverflow => some "attempt to add with overflow"
  | .subOverflow => some "attempt to subtract with overflow"
  | .mulOverflow => some "attempt to multiply with overflow"
  | .divideByZero => some "attempt to divide by zero"
  | .remainderByZero => some "attempt to calculate the remainder with a divisor of zero"
  | .outOfRange | .tooLarge | .dangling | .badPattern => none

/-! ## Input and output errors -/

/-- The class of an input or output error. -/
inductive IoKind where
  | unexpectedEnd
  | invalidInput
  | other
  | notFound
  | invalidData
  | isDirectory
  | notDirectory
  | badName
  | noSpace
  deriving DecidableEq, Repr, Inhabited

/-- The answers of the operating system that a file can meet. -/
inductive Errno where
  | noEntry
  | notDirectory
  | isDirectory
  | invalidArgument
  | noSpace
  | nameTooLong
  deriving DecidableEq, Repr, Inhabited

namespace Errno

def number : Errno → Nat
  | noEntry => 2
  | notDirectory => 20
  | isDirectory => 21
  | invalidArgument => 22
  | noSpace => 28
  | nameTooLong => 36

def description : Errno → String
  | noEntry => "No such file or directory"
  | notDirectory => "Not a directory"
  | isDirectory => "Is a directory"
  | invalidArgument => "Invalid argument"
  | noSpace => "No space left on device"
  | nameTooLong => "File name too long"

def kind : Errno → IoKind
  | noEntry => .notFound
  | notDirectory => .notDirectory
  | isDirectory => .isDirectory
  | invalidArgument => .invalidInput
  | noSpace => .noSpace
  | nameTooLong => .badName

end Errno

/-- Why a medium or a file refused a transfer. -/
inductive IoError where
  /-- A read of `len` bytes at `offset` on a memory medium of `size` bytes. -/
  | readPastEnd (len offset size : Nat)
  /-- A write up to `stop` on a memory medium that cannot grow past `bound`. -/
  | writePastBound (stop bound : Nat)
  /-- A file ended before the requested bytes were read. -/
  | unfilledBuffer
  /-- Text was asked for and the bytes are not UTF-8. -/
  | notUtf8
  /-- A path with a NUL byte, which no file can have. -/
  | nulInPath
  | os (errno : Errno)
  | custom (kind : IoKind) (text : String)
  deriving DecidableEq, Repr, Inhabited

namespace IoError

def kind : IoError → IoKind
  | readPastEnd .. => .unexpectedEnd
  | writePastBound .. => .invalidInput
  | unfilledBuffer => .unexpectedEnd
  | notUtf8 => .invalidData
  | nulInPath => .invalidInput
  | os errno => errno.kind
  | custom kind _ => kind

def message : IoError → String
  | readPastEnd len offset size => s!"read of {len} bytes at {offset} past end {size}"
  | writePastBound stop bound => s!"write ends at {stop} past fixed capacity {bound}"
  | unfilledBuffer => "failed to fill whole buffer"
  | notUtf8 => "stream did not contain valid UTF-8"
  | nulInPath => "file name contained an unexpected NUL byte"
  | os errno => errno.description ++ " (os error " ++ toString errno.number ++ ")"
  | custom _ text => text

end IoError

/-! ## Errors of the SQL engine -/

/-- What the SQL engine reports when it is asked for a connection or a row. -/
inductive SqlError where
  | noSuchVfs (name : String)
  /-- A URI that names another machine than this one. -/
  | badAuthority (authority : String)
  | badCacheMode (mode : String)
  | badAccessMode (mode : String)
  /-- An access mode that allows more than the one it would replace. -/
  | accessNotAllowed (mode : String)
  /-- A name with a NUL byte, which no name can have. -/
  | nulByte (position : Nat)
  | cannotOpen (path : String)
  | diskIo
  | noRows
  deriving DecidableEq, Repr, Inhabited

def SqlError.message : SqlError → String
  | .noSuchVfs name => "no such vfs: " ++ name
  | .badAuthority authority => "invalid uri authority: " ++ authority
  | .badCacheMode mode => "no such cache mode: " ++ mode
  | .badAccessMode mode => "no such access mode: " ++ mode
  | .accessNotAllowed mode => "access mode not allowed: " ++ mode
  | .nulByte position => s!"nul byte found in provided data at position: {position}"
  | .cannotOpen path => "unable to open database file: " ++ path
  | .diskIo => "disk I/O error"
  | .noRows => "Query returned no rows"

/-! ## Errors -/

/-- Why an operation of the library was refused. -/
inductive Error where
  /-- A write would run into the other region. -/
  | noRoom (region : Region) (offset len : Nat)
  /-- A read reaches past the region's length. -/
  | pastEnd (region : Region) (offset len available : Nat)
  | io (cause : IoError)
  | noMemory
  | journalAlone (name : String)
  | namelessFile
  | negativeOffset (offset : Int)
  | databaseTooLarge (databaseSize capacity : Nat)
  | mediumTooSmall (name : String) (len : Nat)
  | detached
  | volumeRefused (control : String) (cause : IoError)
  | badLabel (reason : String)
  | badFileName (name : String)
  | noFallbackVfs
  | otherLabel (name : String)
  | blobsOpen (count : Nat)
  | registrationRefused (code : Int)
  /-- A text of settings that is not one the reader knows. -/
  | badSettings
  | sql (cause : SqlError)
  deriving DecidableEq, Repr, Inhabited

/-- What is said of a text of settings that its reader does not know. -/
def settingsTrouble : String := "TOML parse error"

namespace Error

/-- The sentence shown for an error. What exactly is wrong with a text of settings is
not told. -/
def message : Error → String
  | noRoom region offset len =>
    region.text ++ s!" region full: write of {len} bytes at offset {offset} would overlap"
  | pastEnd region offset len available =>
    region.text ++ s!" short read: {len} bytes at offset {offset}, region holds {available}"
  | io cause => "I/O error: " ++ cause.message
  | noMemory => "Out of memory allocating blob state"
  | journalAlone name => "Journal opened before its database: " ++ name
  | namelessFile => "Temporary and auxiliary files are not supported"
  | negativeOffset offset => s!"Negative file offset or size: {offset}"
  | databaseTooLarge databaseSize capacity =>
    s!"Corrupt blob header: database size {databaseSize} does not fit a {capacity} byte blob"
  | mediumTooSmall name len => s!"Device {name} is too small for a blob: {len} bytes"
  | detached => "Device is closed"
  | volumeRefused control cause => "Volume control " ++ control ++ " failed: " ++ cause.message
  | badLabel reason => "Invalid VFS name: " ++ reason
  | badFileName name => "Invalid file name: " ++ name
  | noFallbackVfs => "No default VFS available to act as parent"
  | otherLabel name => "VFS already registered as " ++ name
  | blobsOpen count => s!"VFS still has {count} open blob(s)"
  | registrationRefused code => s!"VFS registration failed: {code}"
  | badSettings => "Config parse error: " ++ settingsTrouble
  | sql cause => "SQLite error: " ++ cause.message

def isNoRoom : Error → Bool
  | noRoom .. => true
  | _ => false

def isPastEnd : Error → Bool
  | pastEnd .. => true
  | _ => false

end Error

/-! ## Failures -/

/-- How a computation can end without a value. -/
inductive Failure where
  | refused (error : Error)
  | fault (fault : Fault)
  deriving DecidableEq, Repr, Inhabited

/-- A computation that is refused. -/
def refuse {α : Type} (error : Error) : Except Failure α := .error (.refused error)

end TwinRegion
