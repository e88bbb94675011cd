/-
TwinRegion.Proofs.Mounting — what opening a blob finds.

A medium that is not empty is mountable when it is long enough and its size
word fits; what is then found on it depends on its length and on the two
words alone (`found`). Mounting answers with what is found and changes
nothing, or with a blank blob on a medium that was empty (`ends_mount`);
and while reads work, a mountable medium does mount (`run_mount_within`).
-/
import TwinRegion.Proofs.Ram
import TwinRegion.Blob

namespace TwinRegion

theorem Image.read_eq_zeros {image : Image} {offset len : Nat}
    (h : ∀ i < len, image.byte (offset + i) = 0) : image.read offset len = Bytes.zeros len := by
  apply Array.ext
  · simp
  · intro i hi _
    rw [Image.getElem_read, h i (by simpa using hi)]
    simp [Bytes.zeros]

namespace Blob

open TwinRegion.Partition RamDisk StepM

/-- The partition that the words on a medium stand for. -/
def found (image : Image) : Partition :=
  let capacity := min image.size standardCapacity
  ⟨capacity, sizeOfWord (image.read 0 wordSize),
    if isMarked (image.read (capacity - wordSize) wordSize) then capacity else 0⟩

/-- A medium of at least two blocks whose size word fits. -/
def Mountable (image : Image) : Prop :=
  2 * blockSize ≤ image.size ∧
    (found image).databaseSize + blockSize ≤ (found image).capacity

theorem usable_eq_ok_iff {name : String} {length capacity : Nat} :
    usable name length = .ok capacity ↔
      2 * blockSize ≤ length ∧ capacity = min length standardCapacity := by
  unfold usable
  split
  · refine ⟨fun h => ?_, fun h => absurd h.1 (by omega)⟩
    cases h
  · exact ⟨fun h => ⟨by omega, (Except.ok.inj h).symm⟩, fun h => by rw [h.2]⟩

theorem ofWords_eq_ok_iff {capacity : Nat} {word mark : Bytes} {partition : Partition} :
    ofWords capacity word mark = .ok partition ↔
      sizeOfWord word + blockSize < Word.limit ∧ sizeOfWord word + blockSize ≤ capacity ∧
        partition = ⟨capacity, sizeOfWord word, if isMarked mark then capacity else 0⟩ := by
  simp only [ofWords, bind_eq_ok_iff, Word.add_eq_ok_iff]
  constructor
  · rintro ⟨_, ⟨hlim, rfl⟩, h⟩
    split at h
    · cases h
    · exact ⟨hlim, by omega, (Except.ok.inj h).symm⟩
  · rintro ⟨hlim, hfit, rfl⟩
    exact ⟨_, ⟨hlim, rfl⟩, by rw [if_neg (by omega)]; rfl⟩

theorem markOffset_eq_ok_iff {capacity offset : Nat} :
    markOffset capacity = .ok offset ↔ wordSize ≤ capacity ∧ offset = capacity - wordSize := by
  rw [markOffset, Word.sub_eq_ok_iff, eq_comm]

/-- The words of an image stand for what is found there, if it is mountable. -/
theorem ofWords_found {image : Image} {partition : Partition} (hlong : 2 * blockSize ≤ image.size) :
    ofWords (found image).capacity (image.read 0 wordSize)
        (image.read ((found image).capacity - wordSize) wordSize) = .ok partition ↔
      Mountable image ∧ partition = found image := by
  have hlim : (found image).capacity < Word.limit :=
    Nat.lt_of_le_of_lt (Nat.min_le_right ..) (by decide)
  rw [ofWords_eq_ok_iff]
  constructor
  · rintro ⟨-, hfit, rfl⟩
    exact ⟨⟨hlong, hfit⟩, rfl⟩
  · rintro ⟨⟨-, hfit⟩, rfl⟩
    exact ⟨Nat.lt_of_le_of_lt hfit hlim, hfit, rfl⟩

/-- Reading the partition gives a blank one on an empty medium and otherwise what is
found on a mountable one. -/
theorem ends_readPartition (name : String) (disk : RamDisk) :
    (readPartition name : StepM RamDisk Partition).Ends disk
      (fun partition after =>
        (disk.image.size = 0 ∧ partition = .blank standardCapacity ∧
          Became disk (disk.image.write (standardCapacity - 1) #[0]) after) ∨
        (Mountable disk.image ∧ partition = found disk.image ∧ Became disk disk.image after))
      (fun _ after => Became disk disk.image after) := by
  refine .get_bind (.ite (fun hempty => ?_) fun hne => ?_)
  · refine (RamDisk.ends_write disk _ _).bind (fun _ _ h => h.1) fun _ after hafter => .pure ?_
    exact .inl ⟨hempty, rfl, hafter⟩
  refine .check_bind (fun _ _ => .refl disk) fun capacity hcapacity => ?_
  obtain ⟨hlong, rfl⟩ := usable_eq_ok_iff.mp hcapacity
  refine (RamDisk.ends_read disk 0 wordSize).bind (fun _ _ h => h) ?_
  rintro word between ⟨rfl, hbetween⟩
  refine .check_bind (fun _ _ => hbetween) fun offset hoffset => ?_
  obtain ⟨-, rfl⟩ := markOffset_eq_ok_iff.mp hoffset
  refine (RamDisk.ends_read between _ wordSize).bind (fun _ _ h => hbetween.still_trans h) ?_
  rintro mark after ⟨rfl, hafter⟩
  rw [hbetween.image_eq] at hafter ⊢
  refine .check (fun partition hpartition => ?_) fun _ _ => hbetween.trans hafter
  obtain ⟨-, hfit, rfl⟩ := ofWords_eq_ok_iff.mp hpartition
  exact .inr ⟨⟨hlong, hfit⟩, rfl, hbetween.trans hafter⟩

theorem ends_mount (name : String) (disk : RamDisk) :
    (mount name : StepM RamDisk Partition).Ends disk
      (fun partition after =>
        (disk.image.size = 0 ∧ partition = .blank standardCapacity ∧
          Became disk (disk.image.write (standardCapacity - 1) #[0]) after) ∨
        (Mountable disk.image ∧ partition = found disk.image ∧ Became disk disk.image after))
      (fun _ after => Became disk disk.image after) := by
  refine (ends_readPartition name disk).attempt.bind (fun _ _ h => h) fun result between h => ?_
  cases result with
  | ok partition => exact .pure h
  | error error =>
    have hclosed : (discard (StepM.attempt Disk.close) : StepM RamDisk PUnit).Ends between
        (fun _ after => Became disk disk.image after)
        (fun _ after => Became disk disk.image after) := by
      refine StepM.Ends.map ((RamDisk.ends_close between).attempt.mono ?_ ?_) (fun _ _ hlast => hlast)
      · intro result after hlast
        cases result <;> exact h.still_trans hlast
      · exact fun _ _ hlast => h.still_trans hlast
    exact hclosed.bind (fun _ _ hlast => hlast) fun _ _ hlast => .refuse hlast

/-- While reads work, what a medium of two blocks opens as depends on its words. -/
theorem run_readPartition_long {disk : RamDisk} (name : String)
    (hreads : disk.faults.reads = false) (hlong : 2 * blockSize ≤ disk.image.size) :
    (readPartition name : StepM RamDisk Partition).run disk =
      (liftM (ofWords (found disk.image).capacity (disk.image.read 0 wordSize)
          (disk.image.read ((found disk.image).capacity - wordSize) wordSize)) :
        StepM RamDisk Partition).run
        { disk with
          calls := .read ((found disk.image).capacity - wordSize) wordSize :: .read 0 wordSize ::
            disk.calls } := by
  have hsize : (found disk.image).capacity ≤ disk.image.size := Nat.min_le_left ..
  have hlim : (found disk.image).capacity < Word.limit :=
    Nat.lt_of_le_of_lt (Nat.min_le_right ..) (by decide)
  have hword : wordSize ≤ (found disk.image).capacity :=
    Nat.le_min.mpr ⟨Nat.le_trans (by decide) hlong, by decide⟩
  have husable : usable name (Disk.length disk) = .ok (found disk.image).capacity :=
    usable_eq_ok_iff.mpr ⟨hlong, rfl⟩
  have hmark : markOffset (found disk.image).capacity = .ok ((found disk.image).capacity - wordSize) :=
    markOffset_eq_ok_iff.mpr ⟨hword, rfl⟩
  have hempty : ¬ Disk.length disk = 0 := fun hzero =>
    absurd (hzero ▸ hlong : 2 * blockSize ≤ 0) (by decide)
  let between : RamDisk := { disk with calls := .read 0 wordSize :: disk.calls }
  have hfirst : (Disk.read 0 wordSize : StepM RamDisk Bytes).run disk =
      .ok (disk.image.read 0 wordSize) between :=
    RamDisk.run_read_within hreads (by omega) (by decide)
  have hlast : (Disk.read ((found disk.image).capacity - wordSize) wordSize :
      StepM RamDisk Bytes).run between =
        .ok (disk.image.read ((found disk.image).capacity - wordSize) wordSize) _ :=
    @RamDisk.run_read_within between _ _ hreads (by show _ ≤ disk.image.size; omega) (by omega)
  rw [readPartition, EStateM.run_bind, EStateM.run_get]
  dsimp only
  rw [if_neg hempty, run_check_bind husable, run_bind_of_ok hfirst, run_check_bind hmark,
    run_bind_of_ok hlast]

theorem run_mount_of_ok {δ : Type} [Disk δ] {name : String} {s s' : δ} {partition : Partition}
    (h : (readPartition name : StepM δ Partition).run s = .ok partition s') :
    (mount name : StepM δ Partition).run s = .ok partition s' := by
  have hkept : (attempt (readPartition name : StepM δ Partition)).run s = .ok (.ok partition) s' := by
    rw [run_attempt, h]
  rw [mount, run_bind_of_ok hkept]
  rfl

/-- While reads work, a mountable medium mounts. -/
theorem run_mount_within {disk : RamDisk} (name : String) (hreads : disk.faults.reads = false)
    (h : Mountable disk.image) :
    (mount name : StepM RamDisk Partition).run disk =
      .ok (found disk.image)
        { disk with
          calls := .read ((found disk.image).capacity - wordSize) wordSize :: .read 0 wordSize ::
            disk.calls } := by
  have hwords := (ofWords_found h.1).mpr ⟨h, rfl⟩
  refine run_mount_of_ok ?_
  rw [run_readPartition_long name hreads h.1, hwords, run_lift_ok]

/-! ### Blank media -/

/-- Where both words are zero, a blank blob is found. -/
theorem found_of_zero_words {image : Image} (hword : image.read 0 wordSize = Bytes.zeros wordSize)
    (hmark : image.read (min image.size standardCapacity - wordSize) wordSize =
      Bytes.zeros wordSize) :
    found image = .blank (min image.size standardCapacity) := by
  have hsize : sizeOfWord (Bytes.zeros wordSize) = 0 := by decide
  have hnone : isMarked (Bytes.zeros wordSize) = false := Bytes.anyNonzero_zeros _
  simp [found, hword, hmark, hsize, hnone, blank]

theorem found_zeros (len : Nat) : found (.zeros len) = .blank (min len standardCapacity) :=
  found_of_zero_words (Image.read_eq_zeros fun _ _ => Image.byte_zeros ..)
    (Image.read_eq_zeros fun _ _ => Image.byte_zeros ..)

/-- What was empty holds nothing but zeros when it has been grown to a whole blob. -/
theorem grown_eq_zeros {image : Image} (hempty : image.size = 0) :
    image.write (standardCapacity - 1) #[0] = .zeros standardCapacity := by
  apply Image.ext_byte
  · rw [Image.size_write, hempty]
    decide
  · intro x
    rw [Image.byte_write, Image.byte_zeros]
    split
    · simp [Array.getD]
    · exact image.byte_eq_zero (by omega)

theorem mountable_of_blank {image : Image} (hlong : 2 * blockSize ≤ image.size)
    (hfound : found image = .blank (min image.size standardCapacity)) : Mountable image := by
  have hblocks : 2 * blockSize ≤ standardCapacity := by decide
  refine ⟨hlong, ?_⟩
  rw [hfound]
  simp only [blank]
  omega

theorem ends_mount_within {disk : RamDisk} (name : String) (hreads : disk.faults.reads = false)
    (h : Mountable disk.image) :
    (mount name : StepM RamDisk Partition).Ends disk
      (fun partition after => partition = found disk.image ∧ Became disk disk.image after)
      (fun _ _ => False) :=
  .of_run_ok (run_mount_within name hreads h) ⟨rfl, rfl, rfl, rfl⟩

/-! ### Any disk -/

section Words

variable {δ : Type} [Disk δ] {P : δ → Prop} {image : Image}
  (hread : ∀ offset s, offset + wordSize ≤ image.size → offset ≤ standardCapacity → P s →
    (Disk.read offset wordSize : StepM δ Bytes).Ends s
      (fun bytes s' => bytes = image.read offset wordSize ∧ P s') (fun _ _ => False))

include hread

/-- Whatever is done with the two words of a disk that can be read. -/
theorem ends_words {α : Type} {next : Bytes → Bytes → StepM δ α} {onValue : α → δ → Prop}
    {onFailure : Failure → δ → Prop} (hlong : 2 * blockSize ≤ image.size)
    (hnext : ∀ s, P s →
      (next (image.read 0 wordSize)
        (image.read ((found image).capacity - wordSize) wordSize)).Ends s onValue onFailure)
    {s : δ} (hs : P s) :
    (do
      let word ← Disk.read 0 wordSize
      let mark ← Disk.read (← markOffset (found image).capacity) wordSize
      next word mark : StepM δ α).Ends s onValue onFailure := by
  have hsize : (found image).capacity ≤ image.size := Nat.min_le_left ..
  have hstandard : (found image).capacity ≤ standardCapacity := Nat.min_le_right ..
  have hwords : wordSize ≤ 2 * blockSize := by decide
  have hword : wordSize ≤ (found image).capacity :=
    Nat.le_min.mpr ⟨Nat.le_trans hwords hlong, by decide⟩
  refine (hread 0 s (by omega) (Nat.zero_le _) hs).bind (fun _ _ h => h.elim) ?_
  rintro word between ⟨rfl, hbetween⟩
  refine .check_ok_bind (markOffset_eq_ok_iff.mpr ⟨hword, rfl⟩) ?_
  refine (hread _ between (by omega) (by omega) hbetween).bind (fun _ _ h => h.elim) ?_
  rintro mark after ⟨rfl, hafter⟩
  exact hnext after hafter

/-- While its words can be read, a disk that is not empty mounts exactly if it is mountable. -/
theorem ends_mount_decided (name : String) (hsome : image.size ≠ 0) {s : δ}
    (hlength : Disk.length s = image.size) (hs : P s) :
    (mount name : StepM δ Partition).Ends s
      (fun partition _ => Mountable image ∧ partition = found image)
      (fun _ _ => ¬ Mountable image) := by
  have hpartition : (readPartition name : StepM δ Partition).Ends s
      (fun partition _ => Mountable image ∧ partition = found image)
      (fun _ _ => ¬ Mountable image) := by
    refine .get_bind ?_
    rw [hlength, if_neg hsome]
    refine .check_bind (fun e he hmountable => ?_) fun capacity hcapacity => ?_
    · have hok : usable name image.size = .ok (found image).capacity :=
        usable_eq_ok_iff.mpr ⟨hmountable.1, rfl⟩
      cases he.symm.trans hok
    · obtain ⟨hlong, rfl⟩ := usable_eq_ok_iff.mp hcapacity
      refine ends_words hread hlong (fun after _ => ?_) hs
      refine .check (fun partition hpartition => (ofWords_found hlong).mp hpartition) ?_
      intro e he hmountable
      cases he.symm.trans ((ofWords_found hlong).mpr ⟨hmountable, rfl⟩)
  refine hpartition.attempt.bind (fun _ _ h => h) fun result after hend => ?_
  cases result with
  | ok partition => exact .pure hend
  | error error => exact Ends.any.bind (fun _ _ _ => hend) fun _ _ _ => .refuse hend

/-- While its words can be read, a mountable disk mounts. -/
theorem ends_mount_of_words (name : String) (h : Mountable image) {s : δ}
    (hlength : Disk.length s = image.size) (hs : P s) :
    (mount name : StepM δ Partition).Ends s (fun partition _ => partition = found image)
      (fun _ _ => False) := by
  have hblocks : 0 < 2 * blockSize := by decide
  have hsome : image.size ≠ 0 := Nat.ne_of_gt (Nat.lt_of_lt_of_le hblocks h.1)
  exact (ends_mount_decided hread name hsome hlength hs).mono (fun _ _ hend => hend.2)
    fun _ _ hnot => hnot h

end Words

end Blob

end TwinRegion
