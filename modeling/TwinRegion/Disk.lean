/-
TwinRegion.Disk — what a blob needs of the medium under it.

A `Disk` is a state with positioned reads and writes of any byte range, a
sync and a close. Every operation is a `StepM` on that state, so a
transfer that fails half-way leaves the half it did. The instances are a
medium in memory (`Disk.Ram`), an open file (`Disk.File`) and a device in
the world (`World`).
-/
import TwinRegion.Bytes

namespace TwinRegion

/-- How much of what was written a sync makes durable. -/
inductive SyncLevel where
  /-- Data and metadata. -/
  | normal
  /-- Data and metadata, with a full flush. -/
  | full
  /-- File data only. -/
  | dataOnly
  deriving DecidableEq, Repr, Inhabited

namespace SyncLevel

/-- The flag bit that asks for file data only. -/
def dataOnlyFlag : Int32 := 16

/-- The level that sync flags ask for: the data-only bit wins, then the low four
bits say full or not. -/
def ofFlags (flags : Int32) : SyncLevel :=
  if flags &&& dataOnlyFlag ≠ 0 then dataOnly
  else if flags &&& 15 = 3 then full
  else normal

end SyncLevel

/-- A state that can be read and written by position. -/
class Disk (δ : Type) where
  /-- Refuses when there is no device left to talk to. -/
  ready : StepM δ Unit
  length : δ → Nat
  read (offset len : Nat) : StepM δ Bytes
  write (offset : Nat) (data : Bytes) : StepM δ Unit
  sync (level : SyncLevel) : StepM δ Unit
  close : StepM δ Unit

namespace Disk

/-- The sector size of a medium that does not say otherwise. -/
def usualSectorSize : Nat := 512

/-- How many sectors a medium of `length` bytes takes, the last perhaps in part. -/
def sectorsIn (length sectorSize : Nat) : Except Failure Nat := do
  Word.div (← Word.sub (← Word.add length sectorSize) 1) sectorSize

/-- The whole sectors that cover `len` bytes at `offset`: their start and length. -/
def sectorCover (offset len sectorSize : Nat) : Except Failure (Nat × Nat) := do
  let start ← Word.sub offset (← Word.rem offset sectorSize)
  let stop ← Word.add offset len
  let sectors ← Word.div (← Word.sub (← Word.add stop sectorSize) 1) sectorSize
  return (start, ← Word.sub (← Word.mul sectors sectorSize) start)

end Disk

end TwinRegion
