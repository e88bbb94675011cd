/-
TwinRegion.Sqlite.Callback — the functions that SQLite calls.

Each callback takes SQLite's arguments as they come: a name may be absent
or no text at all, an offset may be negative, an amount too. It does what
the operation of the same name does on the `Vfs` and answers with a result
code. A callback whose argument makes no sense answers with its own code
and does nothing.
-/
import TwinRegion.Sqlite.Host

namespace TwinRegion.Sqlite

/-- An offset or size as SQLite passes it; a negative one is an error. -/
def natural (offset : Int64) : Except Error Nat :=
  if offset < 0 then .error (.negativeOffset offset.toInt) else .ok offset.toNatClampNeg

/-- An amount of bytes; a negative one counts as none. -/
def byteCount (amount : Int32) : Nat := amount.toNatClampNeg

/-! ## Callbacks of the file system -/

/-- What `xOpen` leaves behind. -/
structure OpenAnswer where
  code : Code
  /-- The file, if there is one to close. -/
  file : Option OpenFile
  /-- What was stored through the flags pointer. -/
  outFlags : Option Int32
  deriving Repr, Inhabited

namespace Host

variable [Engine]

/-- The registration that a callback was called through. -/
def current : StepM Host Registration := do
  match (← get).registered with
  | some registration => return registration
  | none => throw (.fault .dangling)

/-- Opens a file. A file without a name would be a temporary one, of which there
are none. -/
def xOpen (name : NameArg) (flags : Int32) (wantsFlags : Bool) : StepM Host OpenAnswer := do
  let serial := (← current).serial
  match name, name.text? with
  | none, _ => return ⟨codeOf .ioError .namelessFile, none, none⟩
  | some _, none => return ⟨.ioError, none, none⟩
  | some _, some path =>
    match ← StepM.attempt (onVfs serial (Vfs.openPath path (regionOfFlags flags))) with
    | .ok handle => return ⟨.ok, some ⟨serial, handle⟩, if wantsFlags then some flags else none⟩
    | .error error => return ⟨codeOf .ioError error, none, none⟩

/-- The code of a step's outcome. -/
def codeOfResult {α : Type} (fallback : Code) : Except Error α → Code
  | .ok _ => .ok
  | .error error => codeOf fallback error

def xDelete (name : NameArg) : StepM Host Code := do
  let serial := (← current).serial
  match name.text? with
  | none => return .ioDelete
  | some path =>
    return codeOfResult .ioDelete (← StepM.attempt (onVfs serial (Vfs.remove path)))

/-- Answers whether a path exists. Any other question about a path is passed on to the
file system below. -/
def xAccess (name : NameArg) (flags : Int32) : StepM Host (Code × Option Bool) := do
  let registration ← current
  if flags ≠ accessExists then
    return Engine.access (← get).world.files name flags
  match name.text? with
  | none => return (.ioAccess, none)
  | some path => return (.ok, some (Vfs.present ⟨registration.registry, (← get).world⟩ path))

/-! ## Callbacks of a file -/

/-- Runs a step for a callback that answers with a code alone. -/
def answer {α : Type} (file : OpenFile) (fallback : Code) (step : StepM Vfs α) :
    StepM Host Code := do
  return codeOfResult fallback (← StepM.attempt (onVfs file.serial step))

def xClose (file : OpenFile) : StepM Host Code :=
  answer file .ioClose (Vfs.close file.handle)

/-- Reads into a buffer of `amount` bytes. The buffer holds the bytes read, or
zeros if the file is too short; after any other failure it holds nothing of use. -/
def xRead (file : OpenFile) (amount : Int32) (offset : Int64) :
    StepM Host (Code × Option Bytes) := do
  match natural offset with
  | .error error => return (codeOf .ioRead error, none)
  | .ok offset =>
    match ← StepM.attempt (onVfs file.serial (Vfs.read file.handle offset (byteCount amount))) with
    | .ok bytes => return (.ok, some bytes)
    | .error error =>
      return (codeOf .ioRead error,
        if error.isPastEnd then some (Bytes.zeros (byteCount amount)) else none)

/-- Writes the first `amount` bytes of `data`. -/
def xWrite (file : OpenFile) (data : Bytes) (amount : Int32) (offset : Int64) :
    StepM Host Code := do
  match natural offset with
  | .error error => return codeOf .ioWrite error
  | .ok offset =>
    answer file .ioWrite (Vfs.write file.handle offset (data.extract 0 (byteCount amount)))

def xTruncate (file : OpenFile) (size : Int64) : StepM Host Code := do
  match natural size with
  | .error error => return codeOf .ioTruncate error
  | .ok size => answer file .ioTruncate (Vfs.truncate file.handle size)

def xSync (file : OpenFile) (flags : Int32) : StepM Host Code :=
  answer file .ioSync (Vfs.sync file.handle flags)

/-- The region's length, as SQLite's signed size. -/
def xFileSize (file : OpenFile) : StepM Host (Code × Int64) := do
  return (.ok, Int64.ofNat (← onVfs file.serial (Vfs.regionSize file.handle)))

end Host

/-! ## Callbacks without a file system

What each callback answers when it is called with no VFS at all. -/

namespace NoVfs

def xOpen : Code := .error
def xDelete : Code := .error
def xFullPathname : Code := .cannotOpen
def xRandomness : Nat := 0
def xSleep : Nat := 0
def xCurrentTime : Code := .error
def xGetLastError : Code := .ok

/-- The question whether a path exists needs the VFS itself, any other one the
file system below it. -/
def xAccess (flags : Int32) : Code :=
  if flags = accessExists then .error else .ioAccess

end NoVfs

end TwinRegion.Sqlite
