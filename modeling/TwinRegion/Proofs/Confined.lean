/-
TwinRegion.Proofs.Confined — where the requests write.

On any disk, a request writes the size word or between the header block and
the end of the blob, and the size word only if it is a sync of the database
(`Request.Admits`). So what the calls of a disk keep, as far as they write
at these places (`Disk.Keeps`), is preserved by all that a request does on
a device, whatever becomes of the request (`Request.preserves_onDevice`).
-/
import TwinRegion.Proofs.Records

namespace TwinRegion

open StepM TwinRegion.Partition

/-! ## Places -/

/-- The run lies between the header block and the end of the blob. -/
def Partition.Within (capacity offset len : Nat) : Prop :=
  blockSize ≤ offset ∧ offset + len ≤ capacity

namespace Request

/-- The request is a sync of the database. -/
def Saves : Request → Prop
  | .sync handle _ => handle.region = .database
  | _ => False

/-- A write of `len` bytes at `offset` is one that the request may make of a blob of this
capacity. -/
def Admits (request : Request) (capacity offset len : Nat) : Prop :=
  (request.Saves ∧ offset = 0 ∧ len = wordSize) ∨ Within capacity offset len

end Request

/-! ## Operations -/

namespace Blob

variable {δ : Type} [Disk δ] {P : δ → Prop} {admitted : Nat → Nat → Prop} {partition : Partition}

theorem preserves_readRuns (hP : Disk.Keeps P admitted) (len : Nat) (buffer : Bytes)
    (runs : List Extent) : Preserves P (readRuns len buffer runs : StepM δ Bytes) := by
  induction runs generalizing buffer with
  | nil => exact preserves_pure buffer
  | cons run rest ih =>
    refine preserves_check_bind fun stop _ => ?_
    by_cases hlong : len < stop
    · rw [if_pos hlong]
      exact fun _ hs => (Ends.throw_bind hs).reached
    · rw [if_neg hlong]
      exact (preserves_pure _).bind fun _ => (hP.read _ _).bind fun bytes => ih (buffer ++ bytes)

theorem preserves_read (hP : Disk.Keeps P admitted) (partition : Partition) (region : Region)
    (offset len : Nat) : Preserves P (read partition region offset len : StepM δ Bytes) := by
  refine preserves_check_bind fun _ _ => hP.ready.bind fun _ => ?_
  cases region with
  | database => exact preserves_check_bind fun place _ => hP.read place len
  | journal =>
    refine (preserves_readRuns hP len #[] _).bind fun bytes => ?_
    exact preserves_check_bind fun _ _ => preserves_pure bytes

/-- Of the runs of a journal request, those are written that its guard keeps off the database. -/
theorem preserves_writeRuns (hP : Disk.Keeps P admitted) (data : Bytes) {runs : List Extent}
    (hruns : ∀ run ∈ runs, partition.databaseSize + blockSize ≤ run.address →
      ∀ len ≤ run.len, admitted run.address len) :
    Preserves P (writeRuns partition data runs : StepM δ Unit) := by
  induction runs with
  | nil => exact preserves_pure ()
  | cons run rest ih =>
    refine preserves_check_bind fun _ hguard => preserves_check_bind fun bytes hslice => ?_
    have hsize : bytes.size ≤ run.len := by
      obtain ⟨-, -, rfl⟩ := slice_eq_ok_iff.mp hslice
      exact size_extract_le data run.bufferStart run.len
    refine (hP.write _ _ ?_).bind fun _ =>
      ih fun other hother => hruns other (List.mem_cons_of_mem _ hother)
    exact hruns run List.mem_cons_self (guardJournalRun_eq_ok_iff.mp hguard).2 _ hsize

/-- A write is one write of the database, where the guard lets it, or some runs of the journal. -/
theorem preserves_write_admitted (hP : Disk.Keeps P admitted) {region : Region} {offset : Nat}
    {data : Bytes}
    (hdatabase : region = .database → partition.guardDatabaseWrite offset data.size = .ok () →
      admitted (blockSize + offset) data.size)
    (hjournal : region = .journal → ∀ run ∈ (partition.extents offset data.size).runs,
      partition.databaseSize + blockSize ≤ run.address →
        ∀ len ≤ run.len, admitted run.address len) :
    Preserves P (write partition region offset data : StepM δ Partition) := by
  refine preserves_check_bind fun stop _ => ?_
  cases region with
  | database =>
    refine preserves_check_bind fun _ hguard => hP.ready.bind fun _ => ?_
    refine preserves_check_bind fun place hplace => ?_
    obtain ⟨-, rfl⟩ := Word.add_eq_ok_iff.mp hplace
    exact (hP.write _ _ (hdatabase rfl hguard)).bind fun _ => preserves_pure _
  | journal =>
    refine hP.ready.bind fun _ => ?_
    refine (preserves_writeRuns hP data (hjournal rfl)).bind fun _ => ?_
    exact preserves_check_bind fun _ _ => preserves_pure _

/-- The runs of a journal request lie in the blob, and its guard keeps them off the header. -/
theorem preserves_write (hP : Disk.Keeps P (Within partition.capacity))
    (hcapacity : blockSize ≤ partition.capacity) (region : Region) (offset : Nat) (data : Bytes) :
    Preserves P (write partition region offset data : StepM δ Partition) := by
  refine preserves_write_admitted hP (fun _ hguard => ?_) fun _ run hrun habove len hlen => ?_
  · obtain ⟨-, -, hroom, -, -⟩ := guardDatabaseWrite_eq_ok_iff.mp hguard
    exact ⟨Nat.le_add_right .., by omega⟩
  · have hbound := extents_bounds hcapacity hrun
    exact ⟨by omega, by omega⟩

theorem preserves_eraseJournal (hP : Disk.Keeps P (Within partition.capacity))
    (hlong : 2 * blockSize ≤ partition.capacity) :
    Preserves P (eraseJournal partition : StepM δ Partition) := by
  have hzeros : (Bytes.zeros wordSize).size = wordSize := by simp
  have hword : wordSize ≤ blockSize := by decide
  refine hP.ready.bind fun _ => preserves_check_bind fun head hhead => ?_
  obtain ⟨-, rfl⟩ := Word.sub_eq_ok_iff.mp hhead
  refine (hP.write _ _ ⟨by omega, by rw [hzeros]; omega⟩).bind fun _ => ?_
  refine preserves_check_bind fun mark hmark => ?_
  obtain ⟨-, rfl⟩ := Word.sub_eq_ok_iff.mp hmark
  exact (hP.write _ _ ⟨by omega, by rw [hzeros]; omega⟩).bind fun _ => preserves_pure _

end Blob

/-- The work of a request on a device preserves what is kept by the writes that the request
may make. -/
theorem Request.preserves_onDevice {δ : Type} [Disk δ] {P : δ → Prop} {partition : Partition}
    (request : Request) (hP : Disk.Keeps P (request.Admits partition.capacity))
    (hlong : 2 * blockSize ≤ partition.capacity) :
    Preserves P (request.onDevice partition : StepM δ Unit) := by
  have hwithin : Disk.Keeps P (Within partition.capacity) := hP.mono fun _ _ => .inr
  cases request with
  | read handle offset len =>
    exact (Blob.preserves_read hP partition handle.region offset len).discard
  | write handle offset data =>
    exact (Blob.preserves_write hwithin (Nat.le_trans (by decide) hlong) handle.region offset
      data).discard
  | truncate handle size => exact preserves_pure ()
  | sync handle flags =>
    show Preserves P (Blob.sync partition handle.region flags)
    cases hregion : handle.region with
    | database => exact (hP.write 0 _ (.inl ⟨hregion, rfl, Blob.size_sizeWord _⟩)).bind fun _ => hP.sync _
    | journal => exact hP.sync _
  | remove path => exact (Blob.preserves_eraseJournal hwithin hlong).discard
  | setFaults medium faults => exact preserves_pure ()

end TwinRegion
