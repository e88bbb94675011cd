/-
TwinRegion.Proofs.OnFile — a blob on a file opens and is formatted as in memory.

Opening and formatting a blob make only calls that a faithful disk answers
from its bytes. What they answer and what they leave is therefore said of
the bytes alone, once for all faithful disks (`Disk.Sound.ends_mount`,
`Disk.Sound.ends_format`). A regular file that is open is such a disk, as is
a medium in memory that fails no call; so a file opens as what `Blob.found`
finds in it and is not written to (`Blob.mount_file`), and what was
formatted opens blank (`Blob.format_file`).
-/
import TwinRegion.Proofs.Formatting
import TwinRegion.Proofs.Mirroring
import TwinRegion.Proofs.Refusing

namespace TwinRegion

open StepM TwinRegion.Partition

/-! ## Sound disks -/

namespace Disk

variable {δ : Type} [Disk δ] {holds : δ → Image → Prop} {s : δ} {image : Image}

/-- A faithful disk that is as long as its bytes, and that a close leaves as it is. -/
structure Sound {δ : Type} [Disk δ] (holds : δ → Image → Prop) : Prop where
  faithful : Faithful holds
  length_eq : ∀ {s image}, holds s image → Disk.length s = image.size
  close : ∀ {s image}, holds s image →
    (Disk.close : StepM δ Unit).Ends s (fun _ after => holds after image) (fun _ _ => False)

/-- Bytes that are there are read. -/
theorem Sound.ends_read (h : Sound holds) (hs : holds s image) {offset len : Nat}
    (hpos : 0 < len) (hlim : offset + len < FileDisk.positionLimit)
    (hin : offset + len ≤ image.size) :
    (Disk.read offset len : StepM δ Bytes).Ends s
      (fun bytes after => bytes = image.read offset len ∧ holds after image)
      (fun _ _ => False) := by
  have hsome : (DiskRequest.read offset len).answerFrom image = some (image.read offset len) :=
    if_pos hin
  have hends := @Sound.faithful _ _ _ h s image (.read offset len) ⟨hpos, hlim⟩ hs
  rw [hsome] at hends
  refine hends.mono ?_ ?_
  · rintro bytes after ⟨hbytes, hafter⟩
    exact ⟨(Option.some.inj hbytes).symm, hafter⟩
  · rintro _ _ ⟨hnone, -⟩
    cases hnone

omit [Disk δ] in
/-- Where a step before a constant answer goes, the whole goes. -/
theorem ends_of_bind_pure {step : StepM δ Unit} {onEnd : δ → Prop}
    (h : (do step; return #[] : StepM δ Bytes).Ends s (fun _ after => onEnd after) (fun _ _ => False)) :
    step.Ends s (fun _ after => onEnd after) (fun _ _ => False) := by
  cases hrun : step.run s with
  | ok _ after =>
    have hwhole : (do step; return #[] : StepM δ Bytes).run s = .ok #[] after := by
      rw [run_bind_of_ok hrun]
      rfl
    obtain ⟨hanswer, hreached⟩ := run_eq_ok_iff.mp hwhole
    exact .of_run_ok hrun (hreached ▸ h.value _ hanswer)
  | error e after =>
    have hwhole : (do step; return #[] : StepM δ Bytes).run s = .error e after := by
      rw [EStateM.run_bind, hrun]
    exact (h.failure e (run_eq_error_iff.mp hwhole).1).elim

theorem Sound.ends_write (h : Sound holds) (hs : holds s image) {offset : Nat} {data : Bytes}
    (hpos : 0 < data.size) (hlim : offset + data.size < FileDisk.positionLimit) :
    (Disk.write offset data : StepM δ Unit).Ends s
      (fun _ after => holds after (image.write offset data)) (fun _ _ => False) := by
  refine ends_of_bind_pure ((@Sound.faithful _ _ _ h s image (.write offset data) ⟨hpos, hlim⟩ hs).mono ?_ ?_)
  · exact fun _ _ hend => hend.2
  · rintro _ _ ⟨hnone, -⟩
    cases hnone

theorem Sound.ends_sync (h : Sound holds) (hs : holds s image) (level : SyncLevel) :
    (Disk.sync level : StepM δ Unit).Ends s (fun _ after => holds after image)
      (fun _ _ => False) := by
  refine ends_of_bind_pure ((@Sound.faithful _ _ _ h s image (.sync level) trivial hs).mono ?_ ?_)
  · exact fun _ _ hend => hend.2
  · rintro _ _ ⟨hnone, -⟩
    cases hnone

/-! ### Opening -/

/-- Why no blob opens on these bytes. -/
def refusal (name : String) (image : Image) : Error :=
  if image.size < 2 * blockSize then .mediumTooSmall name image.size
  else .databaseTooLarge (Blob.found image).databaseSize (Blob.found image).capacity

theorem refusal_of_usable {name : String} {e : Failure} (h : Blob.usable name image.size = .error e) :
    ¬ Blob.Mountable image ∧ e = .refused (refusal name image) := by
  unfold Blob.usable at h
  split at h
  · rename_i hshort
    cases h
    refine ⟨fun hmountable => absurd hmountable.1 (Nat.not_le.mpr hshort), ?_⟩
    rw [refusal, if_pos hshort]
  · cases h

theorem refusal_of_ofWords (name : String) {e : Failure} (hlong : 2 * blockSize ≤ image.size)
    (h : ofWords (Blob.found image).capacity (image.read 0 wordSize)
      (image.read ((Blob.found image).capacity - wordSize) wordSize) = .error e) :
    ¬ Blob.Mountable image ∧ e = .refused (refusal name image) := by
  have hadd : Word.add (sizeOfWord (image.read 0 wordSize)) blockSize =
      .ok ((Blob.found image).databaseSize + blockSize) := Blob.add_sizeOfWord (Image.size_read ..)
  rw [ofWords, hadd, ok_bind] at h
  by_cases hlarge : (Blob.found image).capacity < (Blob.found image).databaseSize + blockSize
  · rw [if_pos hlarge] at h
    cases h
    refine ⟨fun hmountable => absurd hmountable.2 (Nat.not_le.mpr hlarge), ?_⟩
    rw [refusal, if_neg (Nat.not_lt.mpr hlong)]
    rfl
  · rw [if_neg hlarge] at h
    cases h

/-- The blank blob that an opening makes of nothing, or the one that is found. -/
def Opens (holds : δ → Image → Prop) (image : Image) (partition : Partition) (after : δ) : Prop :=
  (image.size = 0 ∧ partition = .blank standardCapacity ∧ holds after (.zeros standardCapacity)) ∨
    (Blob.Mountable image ∧ partition = Blob.found image ∧ holds after image)

theorem Sound.ends_readPartition (h : Sound holds) (hs : holds s image) (name : String) :
    (Blob.readPartition name : StepM δ Partition).Ends s (Opens holds image)
      (fun e after => image.size ≠ 0 ∧ ¬ Blob.Mountable image ∧
        e = .refused (refusal name image) ∧ holds after image) := by
  have hstandard : standardCapacity + wordSize < FileDisk.positionLimit := by decide
  refine .get_bind ?_
  rw [h.length_eq hs]
  refine .ite (fun hempty => ?_) fun hsome => ?_
  · refine (h.ends_write hs (by decide) (by decide)).bind (fun _ _ h => h.elim) ?_
    intro _ after hafter
    rw [Blob.grown_eq_zeros hempty] at hafter
    exact .pure (.inl ⟨hempty, rfl, hafter⟩)
  refine .check_bind (fun e he => ?_) fun capacity hcapacity => ?_
  · obtain ⟨hnot, rfl⟩ := refusal_of_usable he
    exact ⟨hsome, hnot, rfl, hs⟩
  obtain ⟨hlong, rfl⟩ := Blob.usable_eq_ok_iff.mp hcapacity
  have hwords : wordSize ≤ 2 * blockSize := by decide
  have hword : wordSize ≤ min image.size standardCapacity := by
    have hroom : wordSize ≤ standardCapacity := by decide
    omega
  refine (h.ends_read hs (by decide) (by omega) (by omega)).bind (fun _ _ h => h.elim) ?_
  rintro word between ⟨rfl, hbetween⟩
  refine .check_ok_bind (Blob.markOffset_eq_ok_iff.mpr ⟨hword, rfl⟩) ?_
  refine (h.ends_read hbetween (by decide) (by omega) (by omega)).bind
    (fun _ _ h => h.elim) ?_
  rintro mark after ⟨rfl, hafter⟩
  refine .check (fun partition hpartition => ?_) fun e he => ?_
  · obtain ⟨hmountable, rfl⟩ := (Blob.ofWords_found hlong).mp hpartition
    exact .inr ⟨hmountable, rfl, hafter⟩
  · obtain ⟨hnot, rfl⟩ := refusal_of_ofWords name hlong he
    exact ⟨hsome, hnot, rfl, hafter⟩

/-- What opening makes of a sound disk: nothing is changed on one that is not empty, and it opens
as what is found on it, if anything is. -/
theorem Sound.ends_mount (h : Sound holds) (hs : holds s image) (name : String) :
    (Blob.mount name : StepM δ Partition).Ends s (Opens holds image)
      (fun e after => image.size ≠ 0 ∧ ¬ Blob.Mountable image ∧
        e = .refused (refusal name image) ∧ holds after image) := by
  have hread := (h.ends_readPartition hs name).attempt_of_refused
    fun _ _ hend => ⟨_, hend.2.2.1⟩
  refine hread.bind (fun _ _ h => h.elim) fun result between hend => ?_
  cases result with
  | ok partition => exact .pure hend
  | error error =>
    obtain ⟨hsome, hnot, herror, hbetween⟩ := hend
    cases herror
    have hclose : (StepM.attempt Disk.close : StepM δ _).Ends between
        (fun _ after => holds after image) fun _ _ => False :=
      (h.close hbetween).attempt.mono (fun result after hafter => by cases result with
        | ok _ => exact hafter
        | error _ => exact hafter.elim) fun _ _ h => h
    refine (Ends.discard hclose).bind (fun _ _ h => h.elim) fun _ after hafter => ?_
    exact .refuse ⟨hsome, hnot, rfl, hafter⟩

theorem Sound.run_mount_found (h : Sound holds) (hs : holds s image) (name : String)
    (hmountable : Blob.Mountable image) :
    ∃ after, (Blob.mount name : StepM δ Partition).run s = .ok (Blob.found image) after ∧
      holds after image := by
  have hblocks : 0 < 2 * blockSize := by decide
  have hlong := hmountable.1
  have hends := h.ends_mount hs name
  cases hrun : (Blob.mount name : StepM δ Partition).run s with
  | ok partition after =>
    obtain ⟨hanswer, rfl⟩ := run_eq_ok_iff.mp hrun
    obtain ⟨hempty, -⟩ | ⟨-, rfl, hafter⟩ := hends.value partition hanswer
    · omega
    · exact ⟨_, rfl, hafter⟩
  | error e after => exact absurd hmountable (hends.failure e (run_eq_error_iff.mp hrun).1).2.1

theorem Sound.run_mount_refused (h : Sound holds) (hs : holds s image) (name : String)
    (hsome : image.size ≠ 0) (hnot : ¬ Blob.Mountable image) :
    ∃ after, (Blob.mount name : StepM δ Partition).run s =
      .error (.refused (refusal name image)) after ∧ holds after image := by
  have hends := h.ends_mount hs name
  cases hrun : (Blob.mount name : StepM δ Partition).run s with
  | ok partition after =>
    obtain ⟨hempty, -⟩ | ⟨hmountable, -⟩ := hends.value partition (run_eq_ok_iff.mp hrun).1
    · exact absurd hempty hsome
    · exact absurd hmountable hnot
  | error e after =>
    obtain ⟨hanswer, rfl⟩ := run_eq_error_iff.mp hrun
    obtain ⟨-, -, rfl, hafter⟩ := hends.failure e hanswer
    exact ⟨_, rfl, hafter⟩

theorem Sound.run_mount_empty (h : Sound holds) (hs : holds s image) (name : String)
    (hempty : image.size = 0) :
    ∃ after, (Blob.mount name : StepM δ Partition).run s = .ok (.blank standardCapacity) after ∧
      holds after (.zeros standardCapacity) := by
  have hblocks : 0 < 2 * blockSize := by decide
  have hends := h.ends_mount hs name
  cases hrun : (Blob.mount name : StepM δ Partition).run s with
  | ok partition after =>
    obtain ⟨hanswer, rfl⟩ := run_eq_ok_iff.mp hrun
    obtain ⟨-, rfl, hafter⟩ | ⟨hmountable, -⟩ := hends.value partition hanswer
    · exact ⟨_, rfl, hafter⟩
    · have hlong := hmountable.1
      omega
  | error e after => exact absurd hempty (hends.failure e (run_eq_error_iff.mp hrun).1).1

/-! ### Formatting -/

/-- What formatting makes of a sound disk: its two blocks are wiped, unless it is too short. -/
theorem Sound.ends_format (h : Sound holds) (hs : holds s image) (name : String) :
    (Blob.format name : StepM δ Partition).Ends s
      (fun partition after => (image.size = 0 ∨ 2 * blockSize ≤ image.size) ∧
        partition = .blank (Blob.formatWindow image.size) ∧
        holds after (image.wiped (Blob.formatWindow image.size)))
      (fun e after => image.size ≠ 0 ∧ image.size < 2 * blockSize ∧
        e = .refused (.mediumTooSmall name image.size) ∧ holds after image) := by
  refine .get_bind ?_
  rw [h.length_eq hs]
  refine .check_bind (fun e he => ?_) fun capacity hcapacity => ?_
  · unfold Blob.formatCapacity at he
    split at he
    · cases he
    · rename_i hsome
      unfold Blob.usable at he
      split at he
      · cases he
        exact ⟨hsome, ‹_›, rfl, hs⟩
      · cases he
  obtain ⟨hlength, rfl⟩ := Blob.formatCapacity_eq_ok_iff.mp hcapacity
  have hwindow := Blob.le_formatWindow hlength
  have hstandard : Blob.formatWindow image.size ≤ standardCapacity := by
    unfold Blob.formatWindow
    split <;> omega
  have hroom : standardCapacity + blockSize < FileDisk.positionLimit := by decide
  have hhead : journalHead (Blob.formatWindow image.size) =
      .ok (Blob.formatWindow image.size - blockSize) := Word.sub_eq_ok_iff.mpr ⟨by omega, rfl⟩
  have hpos : 0 < (Bytes.zeros blockSize).size := by
    rw [Bytes.size_zeros]
    decide
  refine (h.ends_write hs hpos (by rw [Bytes.size_zeros]; omega)).bind (fun _ _ h => h.elim)
    fun _ headed hheaded => ?_
  refine .check_ok_bind hhead ?_
  refine (h.ends_write hheaded hpos (by rw [Bytes.size_zeros]; omega)).bind
    (fun _ _ h => h.elim) fun _ wiped hwiped => ?_
  refine (h.ends_sync hwiped _).bind (fun _ _ h => h.elim) fun _ after hafter => .pure ?_
  exact ⟨hlength, rfl, hafter⟩

theorem Sound.run_format (h : Sound holds) (hs : holds s image) (name : String)
    (hlength : image.size = 0 ∨ 2 * blockSize ≤ image.size) :
    ∃ after, (Blob.format name : StepM δ Partition).run s =
        .ok (.blank (Blob.formatWindow image.size)) after ∧
      holds after (image.wiped (Blob.formatWindow image.size)) := by
  have hends := h.ends_format hs name
  cases hrun : (Blob.format name : StepM δ Partition).run s with
  | ok partition after =>
    obtain ⟨hanswer, rfl⟩ := run_eq_ok_iff.mp hrun
    obtain ⟨-, rfl, hafter⟩ := hends.value partition hanswer
    exact ⟨_, rfl, hafter⟩
  | error e after =>
    obtain ⟨hsome, hshort, -⟩ := hends.failure e (run_eq_error_iff.mp hrun).1
    omega

theorem Sound.run_format_short (h : Sound holds) (hs : holds s image) (name : String)
    (hsome : image.size ≠ 0) (hshort : image.size < 2 * blockSize) :
    ∃ after, (Blob.format name : StepM δ Partition).run s =
      .error (.refused (.mediumTooSmall name image.size)) after ∧ holds after image := by
  have hends := h.ends_format hs name
  cases hrun : (Blob.format name : StepM δ Partition).run s with
  | ok partition after =>
    obtain ⟨hlength, -⟩ := hends.value partition (run_eq_ok_iff.mp hrun).1
    omega
  | error e after =>
    obtain ⟨hanswer, rfl⟩ := run_eq_error_iff.mp hrun
    obtain ⟨-, -, rfl, hafter⟩ := hends.failure e hanswer
    exact ⟨_, rfl, hafter⟩

/-- Formatting what was formatted leaves it, and answers the same. -/
theorem Sound.run_format_again (h : Sound holds) (name : String)
    (hlength : image.size = 0 ∨ 2 * blockSize ≤ image.size)
    (hs : holds s (image.wiped (Blob.formatWindow image.size))) :
    ∃ after, (Blob.format name : StepM δ Partition).run s =
        .ok (.blank (Blob.formatWindow image.size)) after ∧
      holds after (image.wiped (Blob.formatWindow image.size)) := by
  have hblocks := Blob.le_formatWindow hlength
  have hwindow := Blob.formatWindow_wiped hlength
  have hlong : 2 * blockSize ≤ (image.wiped (Blob.formatWindow image.size)).size := by
    have hmountable := Blob.mountable_wiped hlength
    exact hmountable.1
  obtain ⟨after, hrun, hafter⟩ := h.run_format hs name (.inr hlong)
  rw [hwindow] at hrun hafter
  rw [Image.Wiping.wiped.eq_of_wiped (by omega)] at hafter
  exact ⟨after, hrun, hafter⟩

end Disk

/-! ## Files and memory -/

/-- A medium in memory that grows and fails no call is sound. -/
theorem RamDisk.sound : Disk.Sound Holds where
  faithful := faithful
  length_eq h := congrArg Image.size h.2
  close {disk image} h := by
    have hrun : (Disk.close : StepM RamDisk Unit).run disk =
        .ok () { disk with calls := .close :: disk.calls } := by
      show RamDisk.close.run disk = _
      simp [RamDisk.close, record, h.1.faults_eq, DiskFaults.none]
    exact .of_run_ok hrun ⟨⟨h.1.bound_eq, h.1.faults_eq⟩, h.2⟩

/-- A regular file that is open is sound. -/
theorem FileDisk.sound : Disk.Sound Holds where
  faithful := faithful
  length_eq h := h.1.2
  close h := .pure h

namespace Blob

variable {path : String} {store opened : FileStore} {handle : FileHandle} {image : Image}
  (hopen : (FileHandle.openAt path).run store = .ok handle opened)
  (hbody : opened.body handle.number = .regular image)

include hopen hbody

/-- Opening a regular file that is not empty does not change it, and succeeds exactly if it is
mountable; the blob is then the one that is found in it, and otherwise the error says why not. An
empty file becomes a whole blob of zeros, which opens the same again. -/
theorem mount_file (name : String) :
    let file : FileDisk := ⟨handle, opened.body handle.number⟩
    let opening := (mount name : StepM FileDisk Partition)
    (image.size ≠ 0 → (opening.reached file).body = .regular image ∧
      (Mountable image → opening.answer file = .ok (found image)) ∧
      (¬ Mountable image → opening.answer file = .error (.refused (Disk.refusal name image)))) ∧
    (image.size = 0 → opening.answer file = .ok (.blank standardCapacity) ∧
      (opening.reached file).body = .regular (.zeros standardCapacity) ∧
      opening.answer (opening.reached file) = .ok (.blank standardCapacity) ∧
      (opening.reached (opening.reached file)).body = .regular (.zeros standardCapacity)) := by
  intro file opening
  have hfile := FileDisk.holds_of_openAt hopen hbody
  constructor
  · intro hsome
    by_cases hmountable : Mountable image
    · obtain ⟨after, hrun, hafter⟩ := FileDisk.sound.run_mount_found hfile name hmountable
      obtain ⟨hanswer, hreached⟩ := run_eq_ok_iff.mp hrun
      exact ⟨hreached ▸ hafter.1.1, fun _ => hanswer, fun hnot => absurd hmountable hnot⟩
    · obtain ⟨after, hrun, hafter⟩ := FileDisk.sound.run_mount_refused hfile name hsome hmountable
      obtain ⟨hanswer, hreached⟩ := run_eq_error_iff.mp hrun
      exact ⟨hreached ▸ hafter.1.1, fun h => absurd h hmountable, fun _ => hanswer⟩
  · intro hempty
    obtain ⟨after, hrun, hafter⟩ := FileDisk.sound.run_mount_empty hfile name hempty
    have hzeros : found (.zeros standardCapacity) = .blank standardCapacity := by
      rw [found_zeros, Nat.min_self]
    have hmountable : Mountable (.zeros standardCapacity) :=
      mountable_of_blank (by decide) (by rw [found_zeros]; rfl)
    obtain ⟨last, hagain, hlast⟩ := FileDisk.sound.run_mount_found hafter name hmountable
    obtain ⟨hanswer, hreached⟩ := run_eq_ok_iff.mp hrun
    obtain ⟨hanswer', hreached'⟩ := run_eq_ok_iff.mp hagain
    rw [hzeros] at hanswer'
    refine ⟨hanswer, ?_, ?_, ?_⟩
    · exact hreached ▸ hafter.1.1
    · exact hreached ▸ hanswer'
    · rw [show opening.reached file = after from hreached, hreached']
      exact hlast.1.1

/-- A regular file that is empty or long enough is formatted: the two blocks are wiped, an opening
finds the blank blob that formatting answered with, and formatting again changes nothing. A file
of less than two blocks is refused untouched. -/
theorem format_file (name : String) :
    let file : FileDisk := ⟨handle, opened.body handle.number⟩
    let window := formatWindow image.size
    let formatting := (format name : StepM FileDisk Partition)
    (image.size = 0 ∨ 2 * blockSize ≤ image.size →
      ∃ formatted, formatting.run file = .ok (.blank window) formatted ∧
        formatted.body = .regular (image.wiped window) ∧
        (∀ again, ∃ last, (mount again : StepM FileDisk Partition).run formatted =
          .ok (.blank window) last ∧ last.body = formatted.body) ∧
        ∃ last, formatting.run formatted = .ok (.blank window) last ∧ last.body = formatted.body) ∧
    (image.size ≠ 0 → image.size < 2 * blockSize →
      ∃ after, formatting.run file = .error (.refused (.mediumTooSmall name image.size)) after ∧
        after.body = file.body) := by
  intro file window formatting
  have hfile := FileDisk.holds_of_openAt hopen hbody
  constructor
  · intro hlength
    obtain ⟨formatted, hrun, hafter⟩ := FileDisk.sound.run_format hfile name hlength
    refine ⟨formatted, hrun, hafter.1.1, fun again => ?_, ?_⟩
    · obtain ⟨last, hmount, hlast⟩ :=
        FileDisk.sound.run_mount_found hafter again (mountable_wiped hlength)
      rw [found_wiped hlength] at hmount
      exact ⟨last, hmount, hlast.1.1.trans hafter.1.1.symm⟩
    · obtain ⟨last, hagain, hlast⟩ := FileDisk.sound.run_format_again name hlength hafter
      exact ⟨last, hagain, hlast.1.1.trans hafter.1.1.symm⟩
  · intro hsome hshort
    obtain ⟨after, hrun, hafter⟩ := FileDisk.sound.run_format_short hfile name hsome hshort
    exact ⟨after, hrun, hafter.1.1.trans hbody.symm⟩

end Blob

end TwinRegion
