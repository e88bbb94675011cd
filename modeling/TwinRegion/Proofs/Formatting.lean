/-
TwinRegion.Proofs.Formatting — what formatting makes of any medium.

Formatting zeroes the header block and the journal's first block
(`Image.wiped`). Wherever it breaks off, the medium has been written in
these two blocks only, or was empty and holds zeros (`Wiping.kept`,
`Wiping.zeros`); wiping what is wiped changes nothing (`Wiping.eq_of_wiped`).
Both words of a wiped medium are zero, so an opening finds the very
partition that formatting answered with (`format_then_mount`).
-/
import TwinRegion.Proofs.Accepting
import TwinRegion.Proofs.Confined
import TwinRegion.Proofs.Opening

namespace TwinRegion

open TwinRegion.Partition StepM

/-! ## Wiping -/

namespace Image

variable {image : Image} {window : Nat}

/-- The contents with the header block zeroed. -/
def headless (image : Image) : Image := image.write 0 (Bytes.zeros blockSize)

/-- The contents with the first and the last block of their leading part zeroed. -/
def wiped (image : Image) (window : Nat) : Image :=
  image.headless.write (window - blockSize) (Bytes.zeros blockSize)

theorem byte_headless (x : Nat) :
    image.headless.byte x = if x < blockSize then 0 else image.byte x := by
  rw [headless, byte_write_zeros]
  simp

theorem byte_wiped (hwindow : blockSize ≤ window) (x : Nat) :
    (image.wiped window).byte x =
      if x < blockSize ∨ (window - blockSize ≤ x ∧ x < window) then 0 else image.byte x := by
  rw [wiped, byte_write_zeros, byte_headless]
  by_cases hlast : window - blockSize ≤ x ∧ x < window
  · rw [if_pos (by omega), if_pos (.inr hlast)]
  · rw [if_neg (by omega)]
    simp only [hlast, or_false]

theorem size_wiped (hwindow : blockSize ≤ window) :
    (image.wiped window).size = max image.size window := by
  simp only [wiped, headless, size_write, Bytes.size_zeros]
  omega

/-- The contents at some point of a wiping. -/
inductive Wiping (image : Image) (window : Nat) : Image → Prop where
  | begun : Wiping image window image
  | headless : Wiping image window image.headless
  | wiped : Wiping image window (image.wiped window)

/-- Wiping what holds the two blocks changes only these. -/
theorem Wiping.kept {after : Image} (h : Wiping image window after) (hwindow : blockSize ≤ window)
    (hsize : window ≤ image.size) :
    after.size = image.size ∧
      ∀ x, blockSize ≤ x → (x < window - blockSize ∨ window ≤ x) →
        after.byte x = image.byte x := by
  cases h with
  | begun => exact ⟨rfl, fun _ _ _ => rfl⟩
  | headless =>
    refine ⟨?_, fun x hx _ => by rw [byte_headless, if_neg (by omega)]⟩
    rw [Image.headless, size_write, Bytes.size_zeros]
    omega
  | wiped =>
    refine ⟨?_, fun x hx hout => by rw [byte_wiped hwindow, if_neg (by omega)]⟩
    rw [size_wiped hwindow, Nat.max_eq_left hsize]

/-- Wiping what is empty appends zeros. -/
theorem Wiping.zeros {after : Image} (h : Wiping image window after) (hwindow : blockSize ≤ window)
    (hempty : image.size = 0) : after.size ≤ window ∧ after = .zeros after.size := by
  have hzero : ∀ x, image.byte x = 0 := fun x => image.byte_eq_zero (by omega)
  have hall : ∀ other : Image, (∀ x, other.byte x = 0) → other = .zeros other.size :=
    fun other h => ext_byte rfl fun x => by rw [h, byte_zeros]
  cases h with
  | begun => exact ⟨by omega, hall _ hzero⟩
  | headless =>
    refine ⟨?_, hall _ fun x => by simp [byte_headless, hzero]⟩
    rw [Image.headless, size_write, Bytes.size_zeros]
    omega
  | wiped =>
    refine ⟨?_, hall _ fun x => by simp [byte_wiped hwindow, hzero]⟩
    exact Nat.le_of_eq (by rw [size_wiped hwindow, hempty, Nat.zero_max])

/-- Wiping again changes nothing. -/
theorem Wiping.eq_of_wiped {after : Image} (h : Wiping (image.wiped window) window after)
    (hwindow : blockSize ≤ window) : after = image.wiped window := by
  have hsize : window ≤ (image.wiped window).size := by
    rw [size_wiped hwindow]
    exact Nat.le_max_right ..
  obtain ⟨hsame, hkept⟩ := h.kept hwindow hsize
  refine ext_byte hsame fun x => ?_
  by_cases hout : blockSize ≤ x ∧ (x < window - blockSize ∨ window ≤ x)
  · exact hkept x hout.1 hout.2
  · have hzero : (image.wiped window).byte x = 0 := by
      rw [byte_wiped hwindow, if_pos (by omega)]
    cases h with
    | begun => rfl
    | headless => simp [byte_headless, hzero]
    | wiped => rw [byte_wiped hwindow, if_pos (by omega), hzero]

end Image

namespace Blob

variable {name : String} {disk : RamDisk}

/-- The leading bytes of a medium of that length that formatting makes a blob of. -/
def formatWindow (length : Nat) : Nat :=
  if length = 0 then standardCapacity else min length standardCapacity

theorem formatCapacity_eq_ok_iff {length capacity : Nat} :
    formatCapacity name length = .ok capacity ↔
      (length = 0 ∨ 2 * blockSize ≤ length) ∧ capacity = formatWindow length := by
  by_cases hempty : length = 0
  · simp [formatCapacity, formatWindow, hempty, eq_comm]
  · simp [formatCapacity, formatWindow, hempty, usable_eq_ok_iff]

theorem le_formatWindow {length : Nat} (h : length = 0 ∨ 2 * blockSize ≤ length) :
    2 * blockSize ≤ formatWindow length := by
  have hblocks : 2 * blockSize ≤ standardCapacity := by decide
  unfold formatWindow
  split <;> omega

theorem formatWindow_le {length : Nat} (h : length ≠ 0) : formatWindow length ≤ length := by
  rw [formatWindow, if_neg h]
  exact Nat.min_le_left ..

/-! ## Wiped media -/

section wiped

variable {image : Image} (h : image.size = 0 ∨ 2 * blockSize ≤ image.size)

include h

theorem size_wiped_window :
    (image.wiped (formatWindow image.size)).size =
      if image.size = 0 then standardCapacity else image.size := by
  have hblocks := le_formatWindow h
  rw [Image.size_wiped (by omega)]
  by_cases hempty : image.size = 0
  · rw [if_pos hempty, hempty, Nat.zero_max]
    rfl
  · rw [if_neg hempty, Nat.max_eq_left (formatWindow_le hempty)]

theorem min_size_wiped :
    min (image.wiped (formatWindow image.size)).size standardCapacity =
      formatWindow image.size := by
  rw [size_wiped_window h, formatWindow]
  split
  · exact Nat.min_self _
  · rfl

/-- The same part of a medium is wiped again. -/
theorem formatWindow_wiped :
    formatWindow (image.wiped (formatWindow image.size)).size = formatWindow image.size := by
  have hsome : (image.wiped (formatWindow image.size)).size ≠ 0 := by
    rw [size_wiped_window h]
    split
    · decide
    · assumption
  rw [formatWindow, if_neg hsome, min_size_wiped h]

/-- What is found on a wiped medium is the blank blob that formatting answers with. -/
theorem found_wiped :
    found (image.wiped (formatWindow image.size)) = .blank (formatWindow image.size) := by
  have hwords : wordSize ≤ blockSize := by decide
  have hblocks := le_formatWindow h
  have hwindow : blockSize ≤ formatWindow image.size := by omega
  have hfound := @found_of_zero_words (image.wiped (formatWindow image.size)) ?_ ?_
  · rwa [min_size_wiped h] at hfound
  · refine Image.read_eq_zeros fun i hi => ?_
    rw [Image.byte_wiped hwindow, if_pos (by omega)]
  · rw [min_size_wiped h]
    refine Image.read_eq_zeros fun i hi => ?_
    rw [Image.byte_wiped hwindow, if_pos (by omega)]

theorem mountable_wiped : Mountable (image.wiped (formatWindow image.size)) := by
  have hblocks := le_formatWindow h
  have hsize := min_size_wiped h
  refine mountable_of_blank (by omega) ?_
  rw [found_wiped h, hsize]

end wiped

/-! ## Runs -/

theorem run_format_short (name : String) (hsome : disk.image.size ≠ 0)
    (hshort : disk.image.size < 2 * blockSize) :
    (format name : StepM RamDisk Partition).run disk =
      .error (.refused (.mediumTooSmall name disk.image.size)) disk := by
  have hcapacity : formatCapacity name (Disk.length disk) =
      .error (.refused (.mediumTooSmall name disk.image.size)) :=
    (if_neg hsome).trans (if_pos hshort)
  rw [format, EStateM.run_bind, EStateM.run_get]
  dsimp only
  rw [hcapacity]
  rfl

/-- A healthy medium that is empty or long enough is formatted. -/
theorem exists_run_format (name : String) (h : disk.Healthy)
    (hlength : disk.image.size = 0 ∨ 2 * blockSize ≤ disk.image.size) :
    ∃ after, (format name : StepM RamDisk Partition).run disk =
      .ok (.blank (formatWindow disk.image.size)) after := by
  have hwindow := le_formatWindow hlength
  have hstandard : formatWindow disk.image.size ≤ standardCapacity := by
    unfold formatWindow
    split <;> omega
  have hmemory : standardCapacity ≤ RamDisk.maxLength := by decide
  have hcapacity : formatCapacity name (Disk.length disk) = .ok (formatWindow disk.image.size) :=
    formatCapacity_eq_ok_iff.mpr ⟨hlength, rfl⟩
  have hhead : journalHead (formatWindow disk.image.size) =
      .ok (formatWindow disk.image.size - blockSize) := Word.sub_eq_ok_iff.mpr ⟨by omega, rfl⟩
  have hfirst : (Disk.write 0 (Bytes.zeros blockSize) : StepM RamDisk Unit).run disk = .ok () _ :=
    h.run_write (by rw [Bytes.size_zeros]; omega)
  have hheaded := h.put 0 (Bytes.zeros blockSize)
  have hsecond : (Disk.write (formatWindow disk.image.size - blockSize) (Bytes.zeros blockSize) :
      StepM RamDisk Unit).run _ = .ok () _ := hheaded.run_write (by rw [Bytes.size_zeros]; omega)
  have hsync : (Disk.sync .full : StepM RamDisk Unit).run _ = .ok () _ :=
    (hheaded.put (formatWindow disk.image.size - blockSize) (Bytes.zeros blockSize)).run_sync .full
  rw [format, EStateM.run_bind, EStateM.run_get]
  dsimp only
  rw [run_check_bind hcapacity, run_bind_of_ok hfirst, run_check_bind hhead, run_bind_of_ok hsecond,
    run_bind_of_ok hsync]
  exact ⟨_, rfl⟩

/-- Formatting wipes the medium or breaks off somewhere in between. -/
theorem ends_format (name : String) (disk : RamDisk) :
    (format name : StepM RamDisk Partition).Ends disk
      (fun partition after => partition = .blank (formatWindow disk.image.size) ∧
        (disk.image.size = 0 ∨ 2 * blockSize ≤ disk.image.size) ∧
        RamDisk.Became disk (disk.image.wiped (formatWindow disk.image.size)) after)
      (fun _ after => disk.image.Wiping (formatWindow disk.image.size) after.image) := by
  refine .get_bind (.check_bind (fun _ _ => .begun) fun capacity hcapacity => ?_)
  obtain ⟨hlength, rfl⟩ := formatCapacity_eq_ok_iff.mp hcapacity
  have hwindow : 2 * blockSize ≤ formatWindow disk.image.size := le_formatWindow hlength
  refine (disk.ends_write 0 _).bind (fun _ after h => ?_) fun _ headed hheaded => ?_
  · rw [h.1.image_eq]
    exact .begun
  have hhead : journalHead (formatWindow disk.image.size) =
      .ok (formatWindow disk.image.size - blockSize) := Word.sub_eq_ok_iff.mpr ⟨by omega, rfl⟩
  refine .check_ok_bind hhead ?_
  refine (headed.ends_write _ _).bind (fun _ after h => ?_) fun _ last hlast => ?_
  · rw [h.1.image_eq, hheaded.image_eq]
    exact .headless
  rw [hheaded.image_eq] at hlast
  have hwiped := hheaded.trans hlast
  refine (last.ends_sync _).bind (fun _ after h => ?_) fun _ after h => .pure ?_
  · rw [h.image_eq, hwiped.image_eq]
    exact .wiped
  · refine ⟨rfl, hlength, ?_⟩
    have hdone := h
    rw [hwiped.image_eq] at hdone
    exact hwiped.trans hdone

/-- What is wiped opens blank, and stays as it is. -/
theorem exists_mount_wiped (again : String) {image : Image}
    (h : image.size = 0 ∨ 2 * blockSize ≤ image.size)
    (himage : disk.image = image.wiped (formatWindow image.size))
    (hreads : disk.faults.reads = false) :
    ∃ last, (mount again : StepM RamDisk Partition).run disk =
        .ok (.blank (formatWindow image.size)) last ∧
      last.image = disk.image := by
  have hmountable : Mountable disk.image := himage ▸ mountable_wiped h
  have hrun := run_mount_within again hreads hmountable
  rw [himage, found_wiped h] at hrun
  exact ⟨_, hrun, himage.symm⟩

/-- Whatever comes of it, formatting what is wiped changes nothing. -/
theorem ends_format_again (name : String) {image : Image}
    (h : image.size = 0 ∨ 2 * blockSize ≤ image.size)
    (himage : disk.image = image.wiped (formatWindow image.size)) :
    (format name : StepM RamDisk Partition).Ends disk
      (fun partition after => partition = .blank (formatWindow image.size) ∧
        after.image = disk.image)
      (fun _ after => after.image = disk.image) := by
  have hblocks := le_formatWindow h
  have hends := ends_format name disk
  rw [himage, formatWindow_wiped h] at hends
  rw [himage]
  refine hends.mono ?_ fun _ _ hwiping => hwiping.eq_of_wiped (by omega)
  rintro _ after ⟨rfl, -, hbecame⟩
  exact ⟨rfl, by rw [hbecame.image_eq]; exact Image.Wiping.wiped.eq_of_wiped (by omega)⟩

/-- If formatting succeeds, an opening finds the blank blob that it answered with, a medium that
was not empty is as it was but for two blocks, and formatting again changes nothing. A medium of
less than two blocks is refused untouched, and a formatting that breaks off has changed nothing
outside of the two blocks, or appended zeros to what was empty. -/
theorem format_then_mount (name : String) (disk : RamDisk) :
    let window := formatWindow disk.image.size
    let formatting := (format name : StepM RamDisk Partition)
    let spared (after : RamDisk) := after.image.size = disk.image.size ∧
      ∀ x, blockSize ≤ x → (x < window - blockSize ∨ window ≤ x) →
        after.image.byte x = disk.image.byte x
    (∀ partition after, formatting.run disk = .ok partition after →
      partition = .blank window ∧
        (disk.faults.reads = false → ∀ again, ∃ last,
          (mount again : StepM RamDisk Partition).run after = .ok partition last ∧
            last.image = after.image) ∧
        (disk.image.size = 0 → after.image = .zeros standardCapacity) ∧
        (disk.image.size ≠ 0 → spared after) ∧
        (formatting.reached after).image = after.image ∧
        ∀ partition', formatting.answer after = .ok partition' → partition' = partition) ∧
      (disk.image.size ≠ 0 → disk.image.size < 2 * blockSize →
        formatting.run disk = .error (.refused (.mediumTooSmall name disk.image.size)) disk) ∧
      ∀ e after, formatting.run disk = .error e after →
        (disk.image.size ≠ 0 → spared after) ∧
          (disk.image.size = 0 →
            after.image.size ≤ standardCapacity ∧ after.image = .zeros after.image.size) := by
  intro window formatting spared
  refine ⟨?_, fun hsome hshort => run_format_short name hsome hshort, ?_⟩
  · intro partition after hrun
    obtain ⟨hanswer, rfl⟩ := run_eq_ok_iff.mp hrun
    obtain ⟨rfl, hlength, hbecame⟩ := (ends_format name disk).value partition hanswer
    have hwindow : blockSize ≤ window := by
      have hblocks : 2 * blockSize ≤ window := le_formatWindow hlength
      omega
    have hwiping : disk.image.Wiping window (formatting.reached disk).image := by
      rw [hbecame.image_eq]
      exact .wiped
    have hagain := ends_format_again name hlength hbecame.image_eq
    refine ⟨rfl, fun hreads again => ?_, fun hempty => ?_, fun hsome => ?_, ?_, ?_⟩
    · exact exists_mount_wiped again hlength hbecame.image_eq (hbecame.reads_eq.trans hreads)
    · have hzeros := (hwiping.zeros hwindow hempty).2
      rw [hbecame.image_eq, size_wiped_window hlength, if_pos hempty] at hzeros
      exact hbecame.image_eq.trans hzeros
    · exact hwiping.kept hwindow (formatWindow_le hsome)
    · exact (hagain.mono (fun _ _ h => h.2) fun _ _ h => h).reached
    · intro partition' hpartition
      exact (hagain.value partition' hpartition).1
  · intro e after hrun
    obtain ⟨hanswer, rfl⟩ := run_eq_error_iff.mp hrun
    have hwiping := (ends_format name disk).failure e hanswer
    refine ⟨fun hsome => ?_, fun hempty => ?_⟩
    · by_cases hshort : disk.image.size < 2 * blockSize
      · rw [(run_eq_error_iff.mp (run_format_short name hsome hshort)).2]
        exact ⟨rfl, fun _ _ _ => rfl⟩
      · have hblocks : 2 * blockSize ≤ window := le_formatWindow (.inr (by omega))
        exact hwiping.kept (by omega) (formatWindow_le hsome)
    · have hwhole : window = standardCapacity := if_pos hempty
      have hblocks : blockSize ≤ standardCapacity := by decide
      rw [show formatWindow disk.image.size = _ from hwhole] at hwiping
      exact hwiping.zeros hblocks hempty

/-- A medium of no whole number of blocks with bytes that are no blob's. -/
def foreign : RamDisk :=
  { RamDisk.growable with
    image := ((Image.zeros 1300).write 0 #[0xff, 0xff]).write 600 #[7] }

/-- It is formatted and opens blank, and what lies between the two blocks is still there. -/
theorem format_foreign : ∃ after last,
    (format "a" : StepM RamDisk Partition).run foreign = .ok (.blank 1300) after ∧
      (mount "b" : StepM RamDisk Partition).run after = .ok (.blank 1300) last ∧
      last.image.byte 600 = 7 := by
  have hlong : 2 * blockSize ≤ foreign.image.size := by decide
  have hsome : foreign.image.size ≠ 0 := by decide
  obtain ⟨after, hrun⟩ := @exists_run_format foreign "a" ⟨rfl, rfl⟩ (.inr hlong)
  obtain ⟨-, hmounts, -, hspared, -⟩ := (format_then_mount "a" foreign).1 _ after hrun
  obtain ⟨last, hmount, himage⟩ := hmounts rfl "b"
  have hkept := (hspared hsome).2 600 (by decide) (.inl (by decide))
  refine ⟨after, last, hrun, hmount, ?_⟩
  rw [himage, hkept, foreign, Image.byte_write, if_pos (by decide)]
  rfl

end Blob

end TwinRegion
