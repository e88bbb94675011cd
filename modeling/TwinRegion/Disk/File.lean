/-
TwinRegion.Disk.File — a file as the medium of a blob.

An open file has a position that seeks and transfers move. Seeking costs a
call, so a handle remembers where the last transfer ended and does not
seek there again; a failed transfer forgets it. The handle also keeps its
own idea of the length: the end it saw when the file was opened, or the
furthest end of its own writes. It does not notice what others do to the
file.
-/
import TwinRegion.Disk
import TwinRegion.FileStore

namespace TwinRegion

/-- One opening of a file. -/
structure FileHandle where
  name : String
  number : Nat
  /-- Where the next transfer happens. -/
  position : Nat
  /-- The length as far as this handle knows. -/
  length : Nat
  /-- Where the last transfer ended, if it did not fail. -/
  remembered : Option Nat
  deriving DecidableEq, Repr, Inhabited

/-- A file handle beside the contents of its file. -/
structure FileDisk where
  handle : FileHandle
  body : FileBody
  deriving Inhabited

namespace FileDisk

/-- The positions of a file are the nonnegative 64-bit integers. -/
def positionLimit : Nat := 1 <<< 63

/-! ## The file itself -/

def setPosition (position : Nat) : StepM FileDisk Unit :=
  modify fun disk => { disk with handle := { disk.handle with position := position } }

/-- Moves to an offset. Device files take any. -/
def seek (offset : Nat) : StepM FileDisk Unit := do
  match (← get).body with
  | .regular _ => if positionLimit ≤ offset then refuse (.io (.os .invalidArgument))
  | .null | .full => pure ()
  setPosition offset

/-- Reads exactly `len` bytes from the position on. A file that ends too soon
leaves the position at its end. -/
def readExact (len : Nat) : StepM FileDisk Bytes := do
  let disk ← get
  let start := disk.handle.position
  if len = 0 then return #[]
  match disk.body with
  | .regular image =>
    if positionLimit ≤ start + len then refuse (.io (.os .invalidArgument))
    if image.size < start + len then
      setPosition (max start image.size)
      refuse (.io .unfilledBuffer)
    setPosition (start + len)
    return image.read start len
  | .null => refuse (.io .unfilledBuffer)
  | .full =>
    setPosition (start + len)
    return Bytes.zeros len

/-- Writes all of `data` from the position on; nothing at all if `data` is empty. -/
def writeAll (data : Bytes) : StepM FileDisk Unit := do
  let disk ← get
  let start := disk.handle.position
  if data.isEmpty then return
  match disk.body with
  | .regular image =>
    if positionLimit ≤ start + data.size then refuse (.io (.os .invalidArgument))
    set { disk with body := .regular (image.write start data) }
    setPosition (start + data.size)
  | .null => setPosition (start + data.size)
  | .full => refuse (.io (.os .noSpace))

/-! ## The device -/

def remember (offset : Option Nat) : StepM FileDisk Unit :=
  modify fun disk => { disk with handle := { disk.handle with remembered := offset } }

/-- Gets to an offset, by a seek only if the last transfer did not end there. -/
def moveTo (offset : Nat) : StepM FileDisk Unit := do
  if (← get).handle.remembered ≠ some offset then seek offset

/-- A transfer at an offset; one that is refused leaves no position to rely on. -/
def transfer {α : Type} (offset : Nat) (act : StepM FileDisk α) : StepM FileDisk α := do
  match ← StepM.attempt (do moveTo offset; act) with
  | .ok value => return value
  | .error error =>
    remember none
    refuse error

/-- A read whose bytes `take` gets, so many from the position on. -/
def readBy (take : Nat → StepM FileDisk Bytes) (offset len : Nat) : StepM FileDisk Bytes := do
  let bytes ← transfer offset (take len)
  remember (some (← Word.add offset len))
  return bytes

/-- A write whose bytes `put` lays from the position on. -/
def writeBy (put : Bytes → StepM FileDisk Unit) (offset : Nat) (data : Bytes) :
    StepM FileDisk Unit := do
  transfer offset (put data)
  let stop ← Word.add offset data.size
  remember (some stop)
  modify fun disk => { disk with handle := { disk.handle with length := max disk.handle.length stop } }

def read (offset len : Nat) : StepM FileDisk Bytes := readBy readExact offset len

def write (offset : Nat) (data : Bytes) : StepM FileDisk Unit := writeBy writeAll offset data

/-- Device files have nothing to sync. -/
def sync (_ : SyncLevel) : StepM FileDisk Unit := do
  match (← get).body with
  | .regular _ => pure ()
  | .null | .full => refuse (.io (.os .invalidArgument))

instance : Disk FileDisk where
  ready := pure ()
  length disk := disk.handle.length
  read := read
  write := write
  sync := sync
  close := pure ()

end FileDisk

/-- Opens the file at a path, made if missing, with the position at its end. -/
def FileHandle.openAt (path : String) : StepM FileStore FileHandle := do
  let store ← get
  match store.openFile path with
  | .error cause => refuse (.io cause)
  | .ok (number, store) =>
    set store
    let length := (store.body number).length
    return ⟨path, number, length, length, some length⟩

end TwinRegion
