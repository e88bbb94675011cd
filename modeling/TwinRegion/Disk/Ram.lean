/-
TwinRegion.Disk.Ram — a medium in memory.

A `RamDisk` grows as it is written, as far as memory goes, or has a bounded
length. It keeps the calls that it received, newest first, and can be told
to fail them; both are for the study of what a blob does to its medium. A
call is on record before a fault is looked at. All users of a medium share
its bytes.
-/
import TwinRegion.Disk
import TwinRegion.Image

namespace TwinRegion

/-- A call that a medium received. -/
inductive DiskCall where
  | read (offset len : Nat)
  | write (offset len : Nat)
  | sync (level : SyncLevel)
  | close
  deriving DecidableEq, Repr, Inhabited

/-- The calls that a medium is told to fail. -/
structure DiskFaults where
  reads : Bool
  writes : Bool
  syncs : Bool
  close : Bool
  /-- How many more writes get through; without a number, all of them. -/
  writesLeft : Option Nat
  deriving DecidableEq, Repr, Inhabited

def DiskFaults.none : DiskFaults := ⟨false, false, false, false, Option.none⟩

/-- A medium in memory. -/
structure RamDisk where
  image : Image
  /-- The length past which the medium cannot grow. -/
  bound : Option Nat
  sectorSize : Nat
  faults : DiskFaults
  /-- The calls received, newest first. -/
  calls : List DiskCall
  synced : Nat
  lastLevel : Option SyncLevel
  deriving Inhabited

namespace RamDisk

/-- An empty medium that grows. -/
def growable : RamDisk := ⟨.empty, none, Disk.usualSectorSize, .none, [], 0, none⟩

/-- The longest that bytes in memory can get. -/
def maxLength : Nat := 1 <<< 63 - 1

/-- A length that memory has no room for is a fault. -/
def guardLength (length : Nat) : Except Failure Unit :=
  if maxLength < length then throw (.fault .tooLarge) else return

/-- A medium of `len` zero bytes that keeps its length. -/
def bounded (len : Nat) : Except Failure RamDisk := do
  guardLength len
  return { growable with image := .zeros len, bound := some len }

/-- The error of a call that the medium was told to fail. -/
def injected (what : String) : Error := .io (.custom .other ("injected " ++ what))

/-- Puts bytes on the medium behind everyone's back. -/
def overwrite (disk : RamDisk) (offset : Nat) (data : Bytes) : Except Failure RamDisk := do
  guardLength (← Word.add offset data.size)
  return { disk with image := disk.image.write offset data }

/-- Looks at bytes of the medium without a call. -/
def peek (disk : RamDisk) (offset len : Nat) : Except Failure Bytes := do
  if disk.image.size < (← Word.add offset len) then throw (.fault .outOfRange)
  return disk.image.read offset len

def record (call : DiskCall) : StepM RamDisk Unit :=
  modify fun disk => { disk with calls := call :: disk.calls }

def read (offset len : Nat) : StepM RamDisk Bytes := do
  record (.read offset len)
  let disk ← get
  if disk.faults.reads then refuse (injected "read failure")
  if disk.image.size < (← Word.add offset len) then
    refuse (.io (.readPastEnd len offset disk.image.size))
  return disk.image.read offset len

/-- Uses up one of the writes that may get through. -/
def spendWrite : StepM RamDisk Unit := do
  let disk ← get
  match disk.faults.writesLeft with
  | none => pure ()
  | some 0 => refuse (injected "nth write failure")
  | some (left + 1) => set { disk with faults := { disk.faults with writesLeft := some left } }

def write (offset : Nat) (data : Bytes) : StepM RamDisk Unit := do
  record (.write offset data.size)
  spendWrite
  let disk ← get
  if disk.faults.writes then refuse (injected "write failure")
  let stop ← Word.add offset data.size
  match disk.bound with
  | none => pure ()
  | some bound => if bound < stop then refuse (.io (.writePastBound stop bound))
  guardLength stop
  set { disk with image := disk.image.write offset data }

def sync (level : SyncLevel) : StepM RamDisk Unit := do
  record (.sync level)
  let disk ← get
  if disk.faults.syncs then refuse (injected "sync failure")
  set { disk with synced := disk.synced + 1, lastLevel := some level }

def close : StepM RamDisk Unit := do
  record .close
  if (← get).faults.close then refuse (injected "close failure")

instance : Disk RamDisk where
  ready := pure ()
  length disk := disk.image.size
  read := read
  write := write
  sync := sync
  close := close

end RamDisk

end TwinRegion
