/-
TwinRegion.Blob.Transfer — reads, writes, truncation and sync of a region.

Each operation checks the request against the partition and then talks to the
disk. A write or a truncation answers with the partition that holds from then
on; an operation that fails has no answer, so the partition stays. The disk
may then hold a part of a journal write, in whole runs.
-/
import TwinRegion.Blob

namespace TwinRegion.Blob

variable {δ : Type} [Disk δ]

/-- Ends a walk over extents with the fault that cut them short, if one did. -/
def finish (extents : Extents) : Except Failure Unit :=
  match extents.stop with
  | none => .ok ()
  | some failure => .error failure

theorem stop_of_finish {extents : Extents} (h : finish extents = .ok ()) : extents.stop = none := by
  unfold finish at h
  split at h
  · assumption
  · cases h

/-- Reads runs one after the other into a buffer of `len` bytes. -/
def readRuns (len : Nat) (buffer : Bytes) : List Extent → StepM δ Bytes
  | [] => return buffer
  | run :: rest => do
    if len < (← Word.add run.bufferStart run.len) then throw (.fault .outOfRange)
    let bytes ← Disk.read run.address run.len
    readRuns len (buffer ++ bytes) rest

/-- Writes the parts of `data` to their runs and stops at the first run that
would touch the database. -/
def writeRuns (partition : Partition) (data : Bytes) : List Extent → StepM δ Unit
  | [] => return
  | run :: rest => do
    partition.guardJournalRun run.address run.len
    Disk.write run.address (← data.slice run.bufferStart run.len)
    writeRuns partition data rest

/-- The `len` bytes of a region from `offset` on. -/
def read (partition : Partition) (region : Region) (offset len : Nat) : StepM δ Bytes := do
  partition.guardRead region offset len
  Disk.ready
  match region with
  | .database => Disk.read (← Partition.databaseAddress offset) len
  | .journal =>
    let extents := partition.extents offset len
    let bytes ← readRuns len #[] extents.runs
    finish extents
    return bytes

/-- Writes `data` into a region at `offset`; the region then reaches at least as
far as the write did. -/
def write (partition : Partition) (region : Region) (offset : Nat) (data : Bytes) :
    StepM δ Partition := do
  let stop ← Word.add offset data.size
  match region with
  | .database =>
    partition.guardDatabaseWrite offset data.size
    Disk.ready
    Disk.write (← Partition.databaseAddress offset) data
    return { partition with databaseSize := max partition.databaseSize stop }
  | .journal =>
    Disk.ready
    let extents := partition.extents offset data.size
    writeRuns partition data extents.runs
    finish extents
    return { partition with journalSize := max partition.journalSize stop }

/-- Shortens a region; it never grows this way. -/
def truncate (partition : Partition) (region : Region) (size : Nat) : Partition :=
  match region with
  | .database => { partition with databaseSize := min partition.databaseSize size }
  | .journal => { partition with journalSize := min partition.journalSize size }

/-- Makes a region durable. The database's length reaches the header here and
nowhere else. A request for data only is raised to data and metadata. -/
def sync (partition : Partition) (region : Region) (flags : Int32) : StepM δ Unit := do
  if region = .database then
    Disk.write 0 (Partition.sizeWord partition.databaseSize)
  Disk.sync (.ofFlags (flags &&& ~~~SyncLevel.dataOnlyFlag))

end TwinRegion.Blob
