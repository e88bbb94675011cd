/-
TwinRegion.Partition — the byte map of a blob.

A blob is one span of the medium that two files share:

    0        block              block + database        capacity - journal   capacity
    | header | database region  | slack                 | journal region     |

The first four bytes of the header hold the length of the database. Its
byte `i` lives at `blockSize + i`. The journal grows down from the end of
the blob one block at a time, and inside a block its bytes keep their
order. The last four bytes of the blob are the mark: one of them is nonzero
while a journal exists.

This module is arithmetic on three lengths; nothing here touches a medium.
-/
import TwinRegion.Bytes

namespace TwinRegion

/-- The unit of the header and of the journal's growth. -/
def blockSize : Nat := 512

/-- The length of a blob on a medium that was empty, and the most of a larger
medium that a blob uses. -/
def standardCapacity : Nat := 10 * 1024 * 1024

/-- The length of the header's size word and of the mark. -/
def wordSize : Nat := 4

/-- The largest database length that the size word can hold. -/
def sizeWordMax : Nat := 1 <<< 32 - 1

/-- The three lengths that fix where every byte of a blob lives. -/
structure Partition where
  capacity : Nat
  databaseSize : Nat
  journalSize : Nat
  deriving DecidableEq, Repr, Inhabited

namespace Partition

/-! ## Fixed places -/

/-- Nine tenths of the blob, in whole tenths: the database never grows past it. -/
def databaseCeiling (capacity : Nat) : Nat := capacity / 10 * 9

/-- Where the mark starts. -/
def markOffset (capacity : Nat) : Except Failure Nat := Word.sub capacity wordSize

/-- Where the journal's first block starts. -/
def journalHead (capacity : Nat) : Except Failure Nat := Word.sub capacity blockSize

/-- Where byte `offset` of the database lives. -/
def databaseAddress (offset : Nat) : Except Failure Nat := Word.add blockSize offset

/-- The size word of a database length; it keeps the low 32 bits. -/
def sizeWord (databaseSize : Nat) : Bytes := Bytes.ofWord32 databaseSize

/-- The database length that a size word stands for. -/
def sizeOfWord (word : Bytes) : Nat := word.toNat

/-- Any byte of the mark that is not zero stands for a journal. -/
def isMarked (mark : Bytes) : Bool := mark.anyNonzero

/-! ## Partitions -/

/-- An empty blob. -/
def blank (capacity : Nat) : Partition := ⟨capacity, 0, 0⟩

/-- The partition that a size word and a mark stand for. Nothing on the medium
records how long a journal is, so one that is marked is taken to fill the blob. -/
def ofWords (capacity : Nat) (word mark : Bytes) : Except Failure Partition := do
  let databaseSize := sizeOfWord word
  if capacity < (← Word.add databaseSize blockSize) then
    refuse (.databaseTooLarge databaseSize capacity)
  return ⟨capacity, databaseSize, if isMarked mark then capacity else 0⟩

/-- The length of a region. -/
def regionSize (partition : Partition) : Region → Nat
  | .database => partition.databaseSize
  | .journal => partition.journalSize

/-- The bytes at the end of the blob that the journal keeps for itself: whole
blocks, and never more than the blob. -/
def journalReserve (partition : Partition) : Except Failure Nat := do
  let rounded ← Word.sub (← Word.add partition.journalSize blockSize) 1
  return min (← Word.mul (rounded / blockSize) blockSize) partition.capacity

/-- The bytes between the database and the journal. -/
def slack (partition : Partition) : Except Failure Nat := do
  return partition.capacity - (← Word.add blockSize partition.databaseSize) - partition.journalSize

/-! ## Admission -/

/-- A read has to lie inside the region. -/
def guardRead (partition : Partition) (region : Region) (offset len : Nat) : Except Failure Unit := do
  if partition.regionSize region < (← Word.add offset len) then
    refuse (.pastEnd region offset len (partition.regionSize region))

/-- A database write has to end in front of the journal's blocks, counted from the
start of the blob, stay below nine tenths of the blob, and end where the size word
can still say so. -/
def guardDatabaseWrite (partition : Partition) (offset len : Nat) : Except Failure Unit := do
  let stop ← Word.add offset len
  let journalStart := partition.capacity - (← partition.journalReserve)
  let guarded ← Word.add stop blockSize
  if journalStart < guarded ∨ databaseCeiling partition.capacity < stop ∨ sizeWordMax < stop then
    refuse (.noRoom .database offset len)

/-- A run of journal bytes has to start above the database. -/
def guardJournalRun (partition : Partition) (address len : Nat) : Except Failure Unit := do
  if address < (← Word.add partition.databaseSize blockSize) then
    refuse (.noRoom .journal address len)

end Partition

end TwinRegion
