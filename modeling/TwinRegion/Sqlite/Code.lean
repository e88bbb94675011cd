/-
TwinRegion.Sqlite.Code — the numbers of the SQLite interface.

SQLite talks to a file system in integers: result codes, open flags and
control codes. `codeOf` turns an error into a result code; where the code
depends on which callback met the error, the callback's own code is the
fallback.
-/
import TwinRegion.Error

namespace TwinRegion.Sqlite

/-- A result code. -/
abbrev Code := Int

namespace Code

def ok : Code := 0
def error : Code := 1
def busy : Code := 5
def noMemory : Code := 7
def ioError : Code := 10
def notFound : Code := 12
def full : Code := 13
def cannotOpen : Code := 14
def ioRead : Code := 266
def shortRead : Code := 522
def ioWrite : Code := 778
def ioSync : Code := 1034
def ioTruncate : Code := 1546
def ioStat : Code := 1802
def ioDelete : Code := 2570
def ioAccess : Code := 3338
def ioLock : Code := 3850
def ioClose : Code := 4106
def ioDeleteNoEntry : Code := 5898

end Code

/-! ## Flags -/

def openReadOnly : Int32 := 0x1
def openReadWrite : Int32 := 0x2
def openCreate : Int32 := 0x4

/-- The open flags that say what may be done with a file. -/
def openAccess : Int32 := 0x3

/-- The open flag of a file that is to lose its name at once. -/
def openDeleted : Int32 := 0x8

/-- The open flag of a file that must not be there yet. -/
def openNew : Int32 := 0x10

/-- The open flag of a main database; a file opened without it is a journal. -/
def openMainDatabase : Int32 := 0x100

/-- The open flags that say what kind of file it is. -/
def openKind : Int32 := 0xfff00

/-- The open flags of the two kinds of file that lie beside a database. -/
def openCompanion : Int32 := 0x80800

/-- One of the wanted flags is set. -/
def anyFlag (flags wanted : Int32) : Bool := flags &&& wanted ≠ 0

/-- The access question whether a file exists. -/
def accessExists : Int32 := 0

/-- The control code of a pragma. -/
def controlPragma : Int32 := 14

/-- The code of an error. -/
def codeOf (fallback : Code) : Error → Code
  | .noRoom .. => .full
  | .pastEnd .. => .shortRead
  | .noMemory => .noMemory
  | .io _ | .detached | .volumeRefused .. | .negativeOffset _ => fallback
  | _ => .ioError

/-- The region that open flags ask for. -/
def regionOfFlags (flags : Int32) : Region :=
  if anyFlag flags openMainDatabase then .database else .journal

/-- The answer to a control code: a pragma is left to SQLite, all else is taken as done. -/
def controlCode (control : Int32) : Code :=
  if control = controlPragma then .notFound else .ok

/-- The sector size that SQLite is told. -/
def sectorSize : Nat := 512

/-- The device characteristics that SQLite is told: none. -/
def characteristics : Nat := 0

/-- Nobody ever holds a reserved lock, because nothing is locked. -/
def reservedHeld : Bool := false

/-! ## Which methods there are -/

namespace FileMethods

/-- The version of the file methods: neither shared memory nor direct access. -/
def version : Nat := 1
def sharedMemory : Bool := false
def fetch : Bool := false

end FileMethods

namespace VfsMethods

/-- The version of the file system methods: without system call overrides. -/
def version : Nat := 2
def systemCalls : Bool := false

/-- The VFS is registered beside the one that SQLite uses by itself. -/
def isDefault : Bool := false

end VfsMethods

end TwinRegion.Sqlite
