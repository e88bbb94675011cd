/-
TwinRegion.Blob — opening and formatting a blob on any disk, and erasing its journal.

A blob's state is a `Partition` beside the disk that it lives on. Opening
reads the partition off the disk and writes nothing, unless the disk is
empty; formatting makes an empty blob of whatever the disk held; erasing
the journal unmarks it and forgets its length.
-/
import TwinRegion.Disk
import TwinRegion.Partition.Extent

namespace TwinRegion.Blob

/-- The leading bytes of a medium that a blob uses: at least a header block and a
journal block, at most `standardCapacity`. -/
def usable (name : String) (length : Nat) : Except Failure Nat :=
  if length < 2 * blockSize then refuse (.mediumTooSmall name length)
  else .ok (min length standardCapacity)

/-- The bytes of a medium that formatting makes a blob of; an empty one gets a
whole blob. -/
def formatCapacity (name : String) (length : Nat) : Except Failure Nat :=
  if length = 0 then .ok standardCapacity else usable name length

variable {δ : Type} [Disk δ]

/-- Reads the partition off the disk. An empty disk is first grown to a whole blob,
by one zero byte at its end. -/
def readPartition (name : String) : StepM δ Partition := do
  let length := Disk.length (← get)
  if length = 0 then
    Disk.write (standardCapacity - 1) #[0]
    return .blank standardCapacity
  let capacity ← usable name length
  let word ← Disk.read 0 wordSize
  let mark ← Disk.read (← Partition.markOffset capacity) wordSize
  Partition.ofWords capacity word mark

/-- Opens a blob. A disk that holds none is closed again, and whether that close
succeeds does not matter any more. -/
def mount (name : String) : StepM δ Partition := do
  match ← StepM.attempt (readPartition name) with
  | .ok partition => return partition
  | .error error =>
    discard <| StepM.attempt Disk.close
    refuse error

/-- Writes an empty blob over whatever the disk held: the header block and the
journal's first block become zero. -/
def format (name : String) : StepM δ Partition := do
  let capacity ← formatCapacity name (Disk.length (← get))
  Disk.write 0 (Bytes.zeros blockSize)
  Disk.write (← Partition.journalHead capacity) (Bytes.zeros blockSize)
  Disk.sync .full
  return .blank capacity

/-- Erases the journal: zeroes the word at its start and the mark, and forgets its
length. -/
def eraseJournal (partition : Partition) : StepM δ Partition := do
  Disk.ready
  Disk.write (← Partition.journalHead partition.capacity) (Bytes.zeros wordSize)
  Disk.write (← Partition.markOffset partition.capacity) (Bytes.zeros wordSize)
  return { partition with journalSize := 0 }

end TwinRegion.Blob
