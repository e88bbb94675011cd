/-
TwinRegion.Proofs.Opening — what opening makes of any medium.

A medium that is not empty is only read (`RamDisk.called`). It is too short,
or its size word does not fit into the leading part that a blob uses, or a
blob is found on it; which of these is decided by its length and eight of
its bytes, and a medium that holds no blob is closed once. A medium that is
empty and takes the one write of an opening becomes a whole blob of zeros,
and opens as the same blank blob from then on (`mount_decides`).
-/
import TwinRegion.Proofs.Mark
import TwinRegion.Proofs.Refusing

namespace TwinRegion

open TwinRegion.Partition StepM

/-- The medium after calls that changed nothing but the record of calls, newest first. -/
def RamDisk.called (disk : RamDisk) (calls : List DiskCall) : RamDisk :=
  { disk with calls := calls ++ disk.calls }

/-- A close that is refused is on record like one that is not. -/
theorem RamDisk.run_attempt_close (disk : RamDisk) :
    ∃ result, (attempt Disk.close : StepM RamDisk (Except Error Unit)).run disk =
      .ok result (disk.called [.close]) := by
  cases hclose : disk.faults.close with
  | true =>
    have hrun : (Disk.close : StepM RamDisk Unit).run disk =
        .error (.refused (injected "close failure")) (disk.called [.close]) := by
      show RamDisk.close.run disk = _
      simp [RamDisk.close, record, hclose, called]
    exact ⟨_, by rw [run_attempt, hrun]⟩
  | false =>
    have hrun : (Disk.close : StepM RamDisk Unit).run disk = .ok () (disk.called [.close]) := by
      show RamDisk.close.run disk = _
      simp [RamDisk.close, record, hclose, called]
    exact ⟨_, by rw [run_attempt, hrun]⟩

/-- A medium that takes a write has it afterwards. -/
theorem RamDisk.exists_run_of_takes {disk : RamDisk} {offset : Nat} {data : Bytes}
    (h : disk.takes offset data = true) :
    ∃ after, (RamDisk.write offset data).run disk = .ok () after ∧
      Became disk (disk.image.write offset data) after := by
  cases hanswer : (RamDisk.write offset data).answer disk with
  | ok _ =>
    exact ⟨_, run_eq_ok_iff.mpr ⟨hanswer, rfl⟩, (disk.ends_write offset data).value _ hanswer⟩
  | error e =>
    rw [takes, hanswer] at h
    cases h

namespace Blob

variable {name : String} {disk : RamDisk}

/-! ## Media that hold something -/

/-- A medium on which no partition is found is closed. -/
theorem run_mount_of_closed {error : Error} {between : RamDisk}
    (h : (readPartition name : StepM RamDisk Partition).run disk = .error (.refused error) between) :
    (mount name : StepM RamDisk Partition).run disk =
      .error (.refused error) (between.called [.close]) := by
  have hread : (attempt (readPartition name : StepM RamDisk Partition)).run disk =
      .ok (.error error) between := by rw [run_attempt, h]
  obtain ⟨result, hclose⟩ := between.run_attempt_close
  rw [mount, run_bind_of_ok hread]
  simp [discard, LawfulFunctor.map_const, hclose]

theorem run_mount_short (name : String) (hsome : disk.image.size ≠ 0)
    (hshort : disk.image.size < 2 * blockSize) :
    (mount name : StepM RamDisk Partition).run disk =
      .error (.refused (.mediumTooSmall name disk.image.size)) (disk.called [.close]) := by
  have husable : usable name (Disk.length disk) = .error (.refused (.mediumTooSmall name disk.image.size)) :=
    if_pos hshort
  refine run_mount_of_closed ?_
  rw [readPartition, EStateM.run_bind, EStateM.run_get]
  dsimp only
  rw [if_neg (show ¬ Disk.length disk = 0 from hsome), husable]
  rfl

/-- The calls with which the words of a medium are read, newest first. -/
def wordReads (capacity : Nat) : List DiskCall :=
  [.read (capacity - wordSize) wordSize, .read 0 wordSize]

theorem run_mount_corrupt (name : String) (hreads : disk.faults.reads = false)
    (hlong : 2 * blockSize ≤ disk.image.size)
    (hlarge : (found disk.image).capacity < (found disk.image).databaseSize + blockSize) :
    (mount name : StepM RamDisk Partition).run disk =
      .error (.refused (.databaseTooLarge (found disk.image).databaseSize (found disk.image).capacity))
        (disk.called (.close :: wordReads (found disk.image).capacity)) := by
  have hadd : Word.add (sizeOfWord (disk.image.read 0 wordSize)) blockSize =
      .ok ((found disk.image).databaseSize + blockSize) := add_sizeOfWord (Image.size_read ..)
  have hrun := run_readPartition_long name hreads hlong
  rw [ofWords, hadd, ok_bind, if_pos hlarge] at hrun
  exact run_mount_of_closed hrun

/-- A mark is there if one of its bytes is not zero. -/
theorem isMarked_read_iff {image : Image} {offset : Nat} :
    isMarked (image.read offset wordSize) = true ↔ ∃ i < wordSize, image.byte (offset + i) ≠ 0 := by
  rw [Live.isMarked_iff (Image.size_read ..)]
  refine exists_congr fun i => and_congr_right fun hi => ?_
  simp [Array.getD, hi]

theorem found_eq (image : Image) :
    found image = ⟨min image.size standardCapacity, sizeOfWord (image.read 0 wordSize),
      if ∃ i < wordSize, image.byte (min image.size standardCapacity - wordSize + i) ≠ 0
        then min image.size standardCapacity else 0⟩ := by
  simp only [found, isMarked_read_iff]

/-! ## Empty media -/

/-- An empty medium that takes the one write of an opening becomes a blob of zeros. -/
theorem run_mount_empty (name : String) (hempty : disk.image.size = 0)
    (htakes : disk.takes (standardCapacity - 1) #[0] = true) :
    ∃ after, (mount name : StepM RamDisk Partition).run disk = .ok (.blank standardCapacity) after ∧
      RamDisk.Became disk (.zeros standardCapacity) after := by
  obtain ⟨after, hwrite, hbecame⟩ := RamDisk.exists_run_of_takes htakes
  rw [grown_eq_zeros hempty] at hbecame
  refine ⟨after, run_mount_of_ok ?_, hbecame⟩
  rw [readPartition, EStateM.run_bind, EStateM.run_get]
  dsimp only
  rw [if_pos (show Disk.length disk = 0 from hempty)]
  exact run_bind_of_ok hwrite

/-- A medium of zeros opens as a blank blob, and its contents stay. -/
theorem run_mount_zeros (name : String) (hreads : disk.faults.reads = false)
    (himage : disk.image = .zeros standardCapacity) :
    ∃ after, (mount name : StepM RamDisk Partition).run disk = .ok (.blank standardCapacity) after ∧
      after.image = .zeros standardCapacity := by
  have hfound : found disk.image = .blank standardCapacity := by
    rw [himage, found_zeros, Nat.min_self]
  have hlong : 2 * blockSize ≤ disk.image.size := by
    rw [himage]
    decide
  have hmountable : Mountable disk.image := mountable_of_blank hlong (by rw [himage, found_zeros]; rfl)
  have hrun := run_mount_within name hreads hmountable
  rw [hfound] at hrun
  exact ⟨_, hrun, himage⟩

/-! ## Every medium -/

/-- While reads work, opening a medium that is not empty only reads it, and succeeds exactly if the
medium has two blocks and the size word fits into the leading part that a blob uses; the blob is
then the one of the two words, and otherwise the medium is closed once and the error says why.
An empty medium that takes a write becomes a whole blob of zeros, which opens the same again. -/
theorem mount_decides (name : String) {disk : RamDisk} (hreads : disk.faults.reads = false) :
    let window := min disk.image.size standardCapacity
    let databaseSize := sizeOfWord (disk.image.read 0 wordSize)
    let opening := (mount name : StepM RamDisk Partition)
    (disk.image.size ≠ 0 →
      ∃ calls, opening.reached disk = disk.called calls ∧
        (∀ call ∈ calls, call = .close ∨ ∃ offset len, call = .read offset len) ∧
        ((∃ partition, opening.answer disk = .ok partition) ↔
          2 * blockSize ≤ disk.image.size ∧ databaseSize + blockSize ≤ window) ∧
        (∀ partition, opening.answer disk = .ok partition →
          partition = ⟨window, databaseSize,
            if ∃ i < wordSize, disk.image.byte (window - wordSize + i) ≠ 0 then window else 0⟩ ∧
          calls.count .close = 0) ∧
        ∀ e, opening.answer disk = .error e →
          e = .refused (if disk.image.size < 2 * blockSize
            then .mediumTooSmall name disk.image.size
            else .databaseTooLarge databaseSize window) ∧
          calls.count .close = 1) ∧
    (disk.image.size = 0 → disk.takes (standardCapacity - 1) #[0] = true →
      opening.answer disk = .ok (.blank standardCapacity) ∧
        (opening.reached disk).image = .zeros standardCapacity ∧
        opening.answer (opening.reached disk) = .ok (.blank standardCapacity) ∧
        (opening.reached (opening.reached disk)).image = .zeros standardCapacity) := by
  intro window databaseSize opening
  constructor
  · intro hsome
    by_cases hshort : disk.image.size < 2 * blockSize
    · obtain ⟨hanswer, hreached⟩ := run_eq_error_iff.mp (run_mount_short name hsome hshort)
      refine ⟨_, hreached, by simp, ?_, ?_, ?_⟩
      · exact iff_of_false (by simp [opening, hanswer]) (by omega)
      · simp [opening, hanswer]
      · intro e he
        cases he.symm.trans hanswer
        rw [if_pos hshort]
        exact ⟨rfl, rfl⟩
    have hlong : 2 * blockSize ≤ disk.image.size := Nat.le_of_not_lt hshort
    by_cases hfit : databaseSize + blockSize ≤ window
    · obtain ⟨hanswer, hreached⟩ := run_eq_ok_iff.mp (run_mount_within name hreads ⟨hlong, hfit⟩)
      refine ⟨wordReads window, hreached, by simp [wordReads], ?_, ?_, ?_⟩
      · exact iff_of_true ⟨_, hanswer⟩ ⟨hlong, hfit⟩
      · intro partition hpartition
        cases hpartition.symm.trans hanswer
        exact ⟨found_eq disk.image, rfl⟩
      · intro e he
        cases he.symm.trans hanswer
    · have hlarge : window < databaseSize + blockSize := Nat.lt_of_not_le hfit
      obtain ⟨hanswer, hreached⟩ := run_eq_error_iff.mp (run_mount_corrupt name hreads hlong hlarge)
      refine ⟨_, hreached, by simp [wordReads], ?_, ?_, ?_⟩
      · exact iff_of_false (by simp [opening, hanswer]) fun h => hfit h.2
      · simp [opening, hanswer]
      · intro e he
        cases he.symm.trans hanswer
        rw [if_neg hshort]
        exact ⟨rfl, rfl⟩
  · intro hempty htakes
    obtain ⟨after, hrun, hbecame⟩ := run_mount_empty name hempty htakes
    obtain ⟨hanswer, hafter⟩ := run_eq_ok_iff.mp hrun
    obtain ⟨last, hagain, hlast⟩ := run_mount_zeros name (hbecame.reads_eq.trans hreads)
      hbecame.image_eq
    obtain ⟨hanswer', hreached'⟩ := run_eq_ok_iff.mp hagain
    refine ⟨hanswer, ?_, ?_, ?_⟩
    · rw [hafter, hbecame.image_eq]
    · rw [hafter, hanswer']
    · rw [hafter, hreached', hlast]

/-- A medium longer than a blob, with a byte right behind the part that is used. -/
def oversized : RamDisk :=
  { RamDisk.growable with
    image := (Image.zeros (standardCapacity + blockSize)).write standardCapacity #[7] }

/-- What lies behind the part that is used is no mark. -/
theorem mount_oversized :
    (mount "a" : StepM RamDisk Partition).answer oversized = .ok (.blank standardCapacity) ∧
      ((mount "a" : StepM RamDisk Partition).reached oversized).image = oversized.image := by
  have hword : wordSize ≤ standardCapacity := by decide
  have hsize : min oversized.image.size standardCapacity = standardCapacity := by decide
  have hzero : ∀ x < standardCapacity, oversized.image.byte x = 0 := by
    intro x hx
    rw [oversized, Image.byte_write, if_neg (by omega), Image.byte_zeros]
  have hdatabase : sizeOfWord (oversized.image.read 0 wordSize) = 0 := by
    rw [Image.read_eq_zeros fun i hi => hzero _ (by omega)]
    decide
  have hmark : ¬ ∃ i < wordSize, oversized.image.byte (standardCapacity - wordSize + i) ≠ 0 := by
    rintro ⟨i, hi, hne⟩
    exact hne (hzero _ (by omega))
  have hsome : oversized.image.size ≠ 0 := by decide
  obtain ⟨calls, hreached, -, hopens, hfound, -⟩ := (@mount_decides "a" oversized rfl).1 hsome
  rw [hsize, hdatabase] at hopens
  obtain ⟨partition, hanswer⟩ := hopens.mpr ⟨by decide, by decide⟩
  have hpartition := (hfound partition hanswer).1
  rw [hsize, hdatabase, if_neg hmark] at hpartition
  rw [hanswer, hreached, hpartition]
  exact ⟨rfl, rfl⟩

end Blob

end TwinRegion
