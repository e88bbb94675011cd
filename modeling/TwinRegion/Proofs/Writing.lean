/-
TwinRegion.Proofs.Writing — what the writing operations do to the medium.

One triple per operation, for a blob on a medium in memory. A database
write is one flat write or nothing. A journal write lays the runs that it
gets through (`landed`), all of them if it succeeds. A sync of the database
writes the size word, and erasing the journal writes two zero words, of
which the first may be all that gets through.
-/
import TwinRegion.Proofs.Ram
import TwinRegion.Proofs.Tiling
import TwinRegion.Blob.Transfer

namespace TwinRegion.Blob

open TwinRegion.Partition RamDisk

/-! ## Database writes -/

theorem ends_write_database (partition : Partition) (offset : Nat) (data : Bytes) (disk : RamDisk) :
    (write partition .database offset data : StepM RamDisk Partition).Ends disk
      (fun next after =>
        partition.guardDatabaseWrite offset data.size = .ok () ∧
        next = { partition with databaseSize := max partition.databaseSize (offset + data.size) } ∧
        Became disk (disk.image.write (blockSize + offset) data) after)
      (fun failure after => Became disk disk.image after ∧
        (partition.guardDatabaseWrite offset data.size = .ok () → Unroomy failure)) := by
  refine .check_bind (fun _ he => ⟨.refl disk, fun _ => unroomy_add he⟩) fun stop hstop => ?_
  obtain ⟨-, rfl⟩ := Word.add_eq_ok_iff.mp hstop
  refine .check_bind (fun _ he => ⟨.refl disk, fun hok => ?_⟩) fun _ hguard => .pure_bind ?_
  · rw [hok] at he
    cases he
  refine .check_bind (fun _ he => ⟨.refl disk, fun _ => unroomy_add he⟩) fun place hplace => ?_
  obtain ⟨-, rfl⟩ := Word.add_eq_ok_iff.mp hplace
  refine (RamDisk.ends_write disk _ data).bind (fun _ _ h => ⟨h.1, fun _ => h.2⟩) fun _ after h => ?_
  exact .pure ⟨hguard, rfl, h⟩

/-! ## Journal writes -/

/-- The leading runs of a journal write that stay off the database and that the
medium takes. -/
def landed (partition : Partition) (data : Bytes) : List Extent → RamDisk → List Extent
  | [], _ => []
  | run :: rest, disk =>
    let first : StepM RamDisk Unit := writeRuns partition data [run]
    match first.answer disk with
    | .ok _ => run :: landed partition data rest (first.reached disk)
    | .error _ => []

theorem slice_eq_ok_iff {bytes part : Bytes} {start len : Nat} :
    bytes.slice start len = .ok part ↔
      start + len < Word.limit ∧ start + len ≤ bytes.size ∧
        part = bytes.extract start (start + len) := by
  simp only [Bytes.slice, bind_eq_ok_iff, Word.add_eq_ok_iff]
  constructor
  · rintro ⟨stop, ⟨hlim, rfl⟩, hslice⟩
    split at hslice
    · cases hslice
    · cases hslice
      exact ⟨hlim, by omega, rfl⟩
  · rintro ⟨hlim, hin, rfl⟩
    exact ⟨_, ⟨hlim, rfl⟩, by rw [if_neg (by omega)]; rfl⟩

/-- A single run is written as a whole, above the database, or not at all. -/
theorem ends_writeRun (partition : Partition) (data : Bytes) (run : Extent) (disk : RamDisk) :
    (writeRuns partition data [run] : StepM RamDisk Unit).Ends disk
      (fun _ after => partition.databaseSize + blockSize ≤ run.address ∧
        run.bufferStart + run.len ≤ data.size ∧
        Became disk (lay data disk.image [run]) after)
      (fun _ after => Became disk disk.image after) := by
  rw [writeRuns]
  refine .check_bind (fun _ _ => .refl disk) fun _ hguard => ?_
  refine .check_bind (fun _ _ => .refl disk) fun bytes hslice => ?_
  obtain ⟨-, hin, rfl⟩ := slice_eq_ok_iff.mp hslice
  refine (RamDisk.ends_write disk run.address _).bind (fun _ _ h => h.1) fun _ after h => ?_
  exact .pure ⟨(guardJournalRun_eq_ok_iff.mp hguard).2, hin, h⟩

theorem writeRuns_cons (partition : Partition) (data : Bytes) (run : Extent) (rest : List Extent) :
    (writeRuns partition data (run :: rest) : StepM RamDisk Unit) =
      writeRuns partition data [run] >>= fun _ => writeRuns partition data rest := by
  simp only [writeRuns, bind_assoc, pure_bind]

theorem landed_leads (partition : Partition) (data : Bytes) (runs : List Extent) (disk : RamDisk) :
    landed partition data runs disk <+: runs := by
  induction runs generalizing disk with
  | nil => exact List.prefix_refl []
  | cons run rest ih =>
    rw [landed]
    split
    · exact List.cons_prefix_cons.mpr ⟨rfl, ih _⟩
    · exact List.nil_prefix

/-- A run that lands lies above the database and has its bytes in the buffer. -/
theorem of_mem_landed {partition : Partition} {data : Bytes} {runs : List Extent} {disk : RamDisk}
    {run : Extent} (h : run ∈ landed partition data runs disk) :
    partition.databaseSize + blockSize ≤ run.address ∧ run.bufferStart + run.len ≤ data.size := by
  induction runs generalizing disk with
  | nil => cases h
  | cons first rest ih =>
    rw [landed] at h
    split at h
    · rename_i hanswer
      rcases List.mem_cons.mp h with rfl | hrest
      · have hrun := (ends_writeRun partition data run disk).value _ hanswer
        exact ⟨hrun.1, hrun.2.1⟩
      · exact ih hrest
    · cases h

/-- Writing runs lays those that land, and succeeds only if all of them do. -/
theorem ends_writeRuns (partition : Partition) (data : Bytes) (runs : List Extent) (disk : RamDisk) :
    (writeRuns partition data runs : StepM RamDisk Unit).Ends disk
      (fun _ after => landed partition data runs disk = runs ∧
        Became disk (lay data disk.image runs) after)
      (fun _ after =>
        Became disk (lay data disk.image (landed partition data runs disk)) after) := by
  induction runs generalizing disk with
  | nil => exact .pure ⟨rfl, .refl disk⟩
  | cons run rest ih =>
    rw [writeRuns_cons]
    refine (ends_writeRun partition data run disk).traced.bind ?_ ?_
    · rintro e after ⟨hanswer, -, hafter⟩
      simp only [landed, hanswer]
      exact hafter
    · rintro _ after ⟨hanswer, rfl, -, -, hafter⟩
      simp only [landed, hanswer]
      refine (ih _).mono ?_ ?_
      · rintro _ last ⟨hall, hlast⟩
        rw [hafter.image_eq] at hlast
        exact ⟨by rw [hall], hafter.trans hlast⟩
      · intro _ last hlast
        rw [hafter.image_eq] at hlast
        exact hafter.trans hlast

/-- The runs of a journal write that reach the medium. A request whose end is no
64-bit number writes none. -/
def storedRuns (partition : Partition) (offset : Nat) (data : Bytes) (disk : RamDisk) :
    List Extent :=
  if offset + data.size < Word.limit then
    landed partition data (partition.extents offset data.size).runs disk
  else []

theorem tiles_storedRuns (partition : Partition) (offset : Nat) (data : Bytes) (disk : RamDisk) :
    Tiles partition.capacity offset 0 (storedRuns partition offset data disk) := by
  unfold storedRuns
  split
  · exact (tiles_extentsFrom ..).of_leading (landed_leads ..)
  · exact .nil

theorem span_storedRuns_le (partition : Partition) (offset : Nat) (data : Bytes) (disk : RamDisk) :
    span (storedRuns partition offset data disk) ≤ data.size := by
  unfold storedRuns
  split
  · exact Nat.le_trans (span_le_of_leading (landed_leads ..)) (span_extentsFrom_le ..)
  · exact Nat.zero_le _

/-- The runs that reach the medium lie between the database and the end of the blob. -/
theorem storedRuns_bounds {partition : Partition} {offset : Nat} {data : Bytes} {disk : RamDisk}
    (h : blockSize ≤ partition.capacity) {run : Extent}
    (hrun : run ∈ storedRuns partition offset data disk) :
    partition.databaseSize + blockSize ≤ run.address ∧
      run.address + run.len ≤ partition.capacity := by
  unfold storedRuns at hrun
  split at hrun
  · exact ⟨(of_mem_landed hrun).1, extents_bounds h ((landed_leads ..).subset hrun)⟩
  · cases hrun

/-- Every byte that reaches the medium has its home above the database. -/
theorem above_of_mem_span {partition : Partition} {offset : Nat} {data : Bytes} {disk : RamDisk}
    (h : blockSize ≤ partition.capacity) {p : Nat} (hle : offset ≤ p)
    (hlt : p < offset + span (storedRuns partition offset data disk)) :
    Housed partition.capacity p ∧
      blockSize + partition.databaseSize ≤ place partition.capacity p := by
  obtain ⟨run, hrun, haddress⟩ := (tiles_storedRuns ..).exists_run hle hlt
  have hbounds := (storedRuns_bounds h hrun).1
  exact ⟨housed_of_le_place (by omega), by omega⟩

/-- Seen through the address map, the runs that reach the medium are one flat write. -/
theorem byte_storedRuns {partition : Partition} (h : blockSize ≤ partition.capacity) (offset : Nat)
    (data : Bytes) (disk : RamDisk) {p : Nat} (hp : Housed partition.capacity p) :
    (lay data disk.image (storedRuns partition offset data disk)).byte (place partition.capacity p) =
      if offset ≤ p ∧ p < offset + span (storedRuns partition offset data disk) then
        data.getD (p - offset) 0
      else disk.image.byte (place partition.capacity p) := by
  have hspan := span_storedRuns_le partition offset data disk
  rw [byte_lay (tiles_storedRuns ..) data disk.image (by omega) _ hp, Nat.zero_add]
  intro run hrun
  have := (storedRuns_bounds h hrun).1
  omega

theorem ends_write_journal (partition : Partition) (offset : Nat) (data : Bytes) (disk : RamDisk) :
    (write partition .journal offset data : StepM RamDisk Partition).Ends disk
      (fun next after =>
        storedRuns partition offset data disk = (partition.extents offset data.size).runs ∧
        (partition.extents offset data.size).stop = none ∧
        next = { partition with journalSize := max partition.journalSize (offset + data.size) } ∧
        Became disk (lay data disk.image (partition.extents offset data.size).runs) after)
      (fun _ after =>
        Became disk (lay data disk.image (storedRuns partition offset data disk)) after) := by
  refine .check_bind (fun e he => ?_) fun stop hstop => .pure_bind ?_
  · have hno : ¬ offset + data.size < Word.limit := by
      intro hlim
      rw [Word.add_eq_ok_iff.mpr ⟨hlim, rfl⟩] at he
      cases he
    rw [storedRuns, if_neg hno]
    exact .refl disk
  obtain ⟨hlim, rfl⟩ := Word.add_eq_ok_iff.mp hstop
  rw [storedRuns, if_pos hlim]
  refine (ends_writeRuns partition data _ disk).bind (fun _ _ h => h) ?_
  rintro _ after ⟨hall, hafter⟩
  exact .check_bind (fun e _ => hall.symm ▸ hafter) fun _ hfinish =>
    .pure ⟨hall, stop_of_finish hfinish, rfl, hafter⟩

/-! ## Sync and erasure -/

@[simp] theorem size_sizeWord (databaseSize : Nat) : (sizeWord databaseSize).size = wordSize := rfl

/-- A sync of the database writes the size word if the medium takes it, and nothing else. -/
theorem ends_sync_database (partition : Partition) (flags : Int32) (disk : RamDisk) :
    (sync partition .database flags : StepM RamDisk Unit).Ends disk
      (fun _ after => disk.takes 0 (sizeWord partition.databaseSize) = true ∧
        Became disk (disk.written 0 (sizeWord partition.databaseSize)) after)
      (fun _ after => Became disk (disk.written 0 (sizeWord partition.databaseSize)) after) := by
  refine (RamDisk.ends_write_takes disk 0 _).bind (fun _ _ h => h) ?_
  rintro _ after ⟨htakes, hafter⟩
  refine (RamDisk.ends_sync after _).mono ?_ ?_
  · intro _ last hlast
    rw [hafter.image_eq] at hlast
    exact ⟨htakes, hafter.trans hlast⟩
  · intro _ last hlast
    rw [hafter.image_eq] at hlast
    exact hafter.trans hlast

theorem ends_sync_journal (partition : Partition) (flags : Int32) (disk : RamDisk) :
    (sync partition .journal flags : StepM RamDisk Unit).Ends disk
      (fun _ after => Became disk disk.image after) (fun _ after => Became disk disk.image after) :=
  RamDisk.ends_sync disk _

/-- Erasing the journal zeroes the word at its start and the mark. If it fails, the
first of the two may have been zeroed. -/
theorem ends_eraseJournal {partition : Partition} (h : blockSize ≤ partition.capacity)
    (disk : RamDisk) :
    (eraseJournal partition : StepM RamDisk Partition).Ends disk
      (fun next after =>
        disk.takes (partition.capacity - blockSize) (Bytes.zeros wordSize) = true ∧
        next = { partition with journalSize := 0 } ∧
        Became disk ((disk.image.write (partition.capacity - blockSize) (Bytes.zeros wordSize)).write
          (partition.capacity - wordSize) (Bytes.zeros wordSize)) after)
      (fun _ after =>
        Became disk (disk.written (partition.capacity - blockSize) (Bytes.zeros wordSize)) after) := by
  have hhead : journalHead partition.capacity = .ok (partition.capacity - blockSize) :=
    Word.sub_eq_ok_iff.mpr ⟨h, rfl⟩
  have hmark : markOffset partition.capacity = .ok (partition.capacity - wordSize) :=
    Word.sub_eq_ok_iff.mpr ⟨Nat.le_trans (by decide) h, rfl⟩
  unfold eraseJournal
  rw [hhead, hmark]
  refine .pure_bind (.check_bind (fun _ h => by cases h) fun head hh => ?_)
  obtain rfl := Except.ok.inj hh
  refine (RamDisk.ends_write_takes disk _ _).bind (fun _ _ h => h) ?_
  rintro _ after ⟨htakes, hafter⟩
  rw [RamDisk.written, if_pos htakes] at hafter ⊢
  refine .check_bind (fun _ h => by cases h) fun mark hm => ?_
  obtain rfl := Except.ok.inj hm
  refine (RamDisk.ends_write after _ _).bind ?_ ?_
  · rintro _ last ⟨hlast, -⟩
    rw [hafter.image_eq] at hlast
    exact hafter.trans hlast
  · intro _ last hlast
    rw [hafter.image_eq] at hlast
    exact .pure ⟨htakes, rfl, hafter.trans hlast⟩

end TwinRegion.Blob
