/-
TwinRegion.Proofs.Recovery — the journal after a crash.

Where the mark on the medium is not zero, the next opening takes the journal
to fill the blob. The addresses of its bytes depend on the capacity alone,
which both lives of the blob compute from the length of the medium, so a
read gives after the crash what it gave before, and the bytes that nobody
wrote are there to be read too (`marked_journal_survives`). Erasing the
journal then gives back all that was reserved for it.
-/
import TwinRegion.Proofs.Mark

namespace TwinRegion

open TwinRegion.Partition RamDisk StepM

namespace Live

variable {live : Live}

/-- A successful erasure leaves no journal, and the rest of the partition as it was. -/
theorem partition_erased (hsound : live.Sound) (h : live.succeeds .eraseJournal = true) :
    (live.after .eraseJournal).partition = { live.partition with journalSize := 0 } := by
  have hchange := change_after hsound.block_le .eraseJournal
  rw [h] at hchange
  generalize live.after .eraseJournal = next at hchange
  cases hchange with
  | erased htakes hdisk => rfl

/-- A read of the journal that gives bytes gives those at the addresses of the request. -/
theorem bytes_of_read {partition : Partition} {disk : RamDisk} {offset len : Nat} {bytes : Bytes}
    (h : (Blob.read partition .journal offset len : StepM RamDisk Bytes).answer disk = .ok bytes) :
    offset + len ≤ partition.journalSize ∧
      bytes = disk.image.gather (place partition.capacity) offset len := by
  refine ⟨?_, ((Blob.ends_read partition .journal offset len disk).value bytes h).1⟩
  cases hguard : partition.guardRead .journal offset len with
  | ok _ => exact (guardRead_eq_ok_iff.mp hguard).2
  | error e => cases h.symm.trans (run_eq_error_iff.mp (Blob.run_read_stopped hguard)).1

/-- After any run from an opened blob that leaves a journal no longer than the blob and a mark that
is not zero, and a crash: the blob opens again, with a journal as long as itself. What could be
read of the journal before reads the same, and all of it can be read: it is what the medium holds
at the journal's addresses. Once it is erased there is no journal, and a database write is admitted
exactly if it ends inside the blob and below the ceiling. -/
theorem marked_journal_survives {name again : String} {disk : RamDisk} {start : Live}
    {faults : DiskFaults}
    (hopen : (Blob.mount name : StepM RamDisk Partition).run disk = .ok start.partition start.disk)
    (hreads : faults.reads = false) {actions : List Action}
    (hlength : (start.run actions).partition.journalSize ≤ (start.run actions).partition.capacity)
    (hmark : isMarked (start.run actions).markBytes = true) :
    let last := start.run actions
    ∃ reopened : Live,
      (Blob.mount again : StepM RamDisk Partition).run { last.disk with faults := faults } =
        .ok reopened.partition reopened.disk ∧
      reopened.partition.capacity = last.partition.capacity ∧
      reopened.partition.journalSize = last.partition.capacity ∧
      (∀ offset len bytes,
        (Blob.read last.partition .journal offset len : StepM RamDisk Bytes).answer last.disk =
          .ok bytes →
        (Blob.read reopened.partition .journal offset len).answer reopened.disk = .ok bytes) ∧
      (∀ offset len, offset + len ≤ last.partition.capacity →
        (Blob.read reopened.partition .journal offset len : StepM RamDisk Bytes).answer
            reopened.disk =
          .ok (last.disk.image.gather (place last.partition.capacity) offset len)) ∧
      ∀ more, (reopened.run more).succeeds .eraseJournal = true →
        ((reopened.run more).after .eraseJournal).partition.journalSize = 0 ∧
        ∀ offset len,
          ((reopened.run more).after .eraseJournal).partition.guardDatabaseWrite offset len =
              .ok () ↔
            offset + len ≤ min (databaseCeiling last.partition.capacity)
              (last.partition.capacity - blockSize) := by
  intro last
  have hsound := sound_of_mount hopen
  have hlast : last.Sound := sound_run hsound actions
  obtain ⟨reopened, hrun, hpartition, himage, hworks⟩ :=
    (holds_run hsound (holds_of_mount hopen) actions).exists_reopened hlast again hreads
  rw [if_pos (show isMarked (last.disk.image.read (last.partition.capacity - wordSize) wordSize) =
    true from hmark)] at hpartition
  have hreopened : reopened.Sound := sound_of_mount hrun
  have hcapacity : reopened.partition.capacity = last.partition.capacity := by rw [hpartition]
  have hjournal : reopened.partition.journalSize = last.partition.capacity := by rw [hpartition]
  have hread : ∀ offset len, offset + len ≤ last.partition.capacity →
      (Blob.read reopened.partition .journal offset len : StepM RamDisk Bytes).answer
          reopened.disk =
        .ok (last.disk.image.gather (place last.partition.capacity) offset len) := by
    intro offset len hin
    have hanswer := @Sound.answer_read reopened hreopened hworks
      (Nat.le_of_eq (hjournal.trans hcapacity.symm)) .journal offset len
      (Nat.le_trans hin (Nat.le_of_eq hjournal.symm))
    rw [himage, hcapacity] at hanswer
    exact hanswer
  refine ⟨reopened, hrun, hcapacity, hjournal, fun offset len bytes hbytes => ?_, hread,
    fun more herased => ?_⟩
  · obtain ⟨hin, rfl⟩ := bytes_of_read hbytes
    exact hread offset len (Nat.le_trans hin hlength)
  · have hmore := sound_run hreopened more
    have hcap : (reopened.run more).partition.capacity = last.partition.capacity :=
      (lengths_run hreopened more).1.trans hcapacity
    have hblock := hmore.block_le
    rw [partition_erased hmore herased]
    refine ⟨rfl, fun offset len => ?_⟩
    have hguard := @guardDatabaseWrite_alone_iff
      { (reopened.run more).partition with journalSize := 0 } offset len rfl hmore.capacity_lt
    rw [hguard, ← hcap]
    dsimp only
    omega

/-- A journal of one block, all ones, on a fresh blob. -/
theorem marked_journal_survives_full_block :
    ∃ reopened : Live,
      (Blob.mount "a" : StepM RamDisk Partition).run
          { (fresh.run [.write .journal 0 (.replicate 512 1)]).disk with faults := .none } =
        .ok reopened.partition reopened.disk ∧
      reopened.partition.journalSize = standardCapacity ∧
      (Blob.read reopened.partition .journal 0 512 : StepM RamDisk Bytes).answer reopened.disk =
        .ok (.replicate 512 1) := by
  have hblock : (Array.replicate 512 1 : Bytes).size = blockSize := Array.size_replicate
  have hwritten : fresh.run [.write .journal 0 (.replicate 512 1)] =
      withJournal (.replicate 512 1) := by
    rw [run_cons, run_nil]
    exact after_of_run_ok (run_write_fresh (Nat.lt_of_lt_of_eq (by decide) hblock.symm)
      (Nat.le_of_eq hblock))
  obtain ⟨reopened, hrun, -, hjournal, -, hread, -⟩ := @marked_journal_survives "a" "a" .growable
    fresh .none (Blob.run_mount_growable "a") rfl [.write .journal 0 (.replicate 512 1)]
    (by rw [hwritten]; exact Nat.le_trans (Nat.le_of_eq hblock) (by decide))
    (by
      rw [hwritten]
      exact (isMarked_withJournal _).mpr ⟨0, by decide, by simp [blockSize, wordSize, Array.getD]⟩)
  rw [hwritten] at hrun hjournal hread
  refine ⟨reopened, by rw [hwritten]; exact hrun, hjournal, ?_⟩
  have hbytes := @Image.gather_write RamDisk.materialised.image standardCapacity 0
    (.replicate 512 1) (Nat.le_of_eq hblock)
  rw [hblock] at hbytes
  exact (hread 0 512 (by decide)).trans (congrArg Except.ok hbytes)

end Live

end TwinRegion
