/-
TwinRegion.Proofs.Surveying — a survey and an opening decide alike.

A survey looks for the two words of a blob by itself instead of opening it.
Both find what `Blob.found` says of the bytes, if these are mountable, and
are refused otherwise (`Blob.ends_words`); a survey only has its own
way of refusing a short file. A file that is there is opened without
anything being made (`FileStore.openFile_of_entry?`), and its bytes are only
read, so a survey leaves the world as it found it
(`survey_agrees_with_opening`).
-/
import TwinRegion.Command.Survey
import TwinRegion.Proofs.Removal
import TwinRegion.Proofs.Sectors

namespace TwinRegion

open StepM Vfs TwinRegion.Partition

/-! ## Files that are there -/

namespace FileStore

variable {store : FileStore} {path : Path} {number : Nat}

/-- What a path that ends in a slash leads to is a directory. -/
theorem exists_directory_of_follow_here {place stop : Place} {names : List FileName}
    (h : store.follow place (names ++ [Path.here]) = .ok stop) :
    ∃ number, store.entryAt stop = some (.directory number) := by
  induction names generalizing place with
  | nil =>
    simp only [List.nil_append, follow, if_true] at h
    split at h
    · cases h
    · cases h
    · cases h
      exact ⟨_, ‹_›⟩
  | cons name rest ih =>
    -- every name but the last is followed by another step, so the end is that of the rest
    rw [List.cons_append, follow] at h
    grind

/-- A file that is there is opened, and nothing is made. -/
theorem openFile_of_entry? (h : store.entry? path = some (.file number)) :
    store.openFile path = .ok (number, store) := by
  unfold entry? lookUp at h
  unfold openFile
  cases hcheck : checkPath path with
  | error cause =>
    rw [hcheck] at h
    cases h
  | ok _ =>
    rw [hcheck] at h
    simp only [bind, Except.bind] at h ⊢
    by_cases hslash : path.endsInSlash
    · rw [if_pos hslash] at h
      cases hfollow : store.follow (startOf path) (path.names ++ [Path.here]) with
      | error errno =>
        rw [hfollow] at h
        cases h
      | ok place =>
        obtain ⟨_, hdirectory⟩ := exists_directory_of_follow_here hfollow
        simp [hfollow, hdirectory, pure, Except.pure] at h
    · simp only [hslash, Bool.false_eq_true, if_false] at h ⊢
      cases hfollow : store.follow (startOf path) path.names with
      | error errno =>
        rw [hfollow] at h
        cases h
      | ok place =>
        have hentry : store.entryAt place = some (.file number) := by
          simpa [hfollow, pure, Except.pure] using h
        simp [hentry, pure, Except.pure]

end FileStore

/-! ## Surveys -/

theorem Device.ends_close_atHand {world : World} {number : Nat} {image : Image} {a : Attached}
    (hsome : image.size ≠ 0) (h : AtHand number image a ∧ a.world = world) :
    (Disk.close : StepM Attached Unit).Ends a (fun _ a' => a'.world = world) (fun _ _ => False) := by
  obtain ⟨⟨handle, hdevice, rfl, -, hbody⟩, rfl⟩ := h
  have hclose : (Disk.close : StepM FileDisk Unit).Ends (a.world.fileDisk handle)
      (fun _ disk => disk = a.world.fileDisk handle) (fun _ _ => False) := .pure rfl
  refine (Attached.ends_call_file hdevice hclose).mono ?_ ?_
  · rintro _ _ ⟨_, rfl, rfl⟩
    refine World.setFileDisk_of_same ?_
    rw [hbody]
    exact FileStore.bodies_of_body hbody hsome
  · rintro _ _ ⟨_, _, hfalse⟩
    exact hfalse

namespace Command

/-- A survey that is right about a partition. -/
structure Survey.Shows (survey : Survey) (partition : Partition) : Prop where
  partition_eq : survey.partition = partition
  marked_iff : survey.marked = true ↔ 0 < partition.journalSize
  slack_eq : partition.slack = .ok survey.slack
  ceiling_eq : survey.ceiling = databaseCeiling partition.capacity

variable {world : World} {path : String} {number : Nat} {image : Image}

theorem exists_sectorsIn {length : Nat} (h : length < FileDisk.positionLimit) :
    ∃ sectors, Disk.sectorsIn length Disk.usualSectorSize = .ok sectors := by
  have hroom : 0 + length + Disk.usualSectorSize < Word.limit := by
    unfold FileDisk.positionLimit at h
    unfold Disk.usualSectorSize Word.limit
    omega
  have hcover := Disk.sectorCover_rounded (by decide) hroom
  rw [Nat.zero_div, Nat.zero_mul, Nat.sub_zero] at hcover
  exact ⟨_, Disk.sectorsIn_eq_ok_iff.mpr hcover⟩

theorem exists_slack (h : Blob.Mountable image) : ∃ slack, (Blob.found image).slack = .ok slack := by
  have hlim : standardCapacity < Word.limit := by decide
  have hstandard : (Blob.found image).capacity ≤ standardCapacity := Nat.min_le_right ..
  have hfits := h.2
  have hadd : Word.add blockSize (Blob.found image).databaseSize =
      .ok (blockSize + (Blob.found image).databaseSize) :=
    Word.add_eq_ok_iff.mpr ⟨by omega, rfl⟩
  exact ⟨_, by rw [slack, hadd]; rfl⟩

/-- The mark that is read is the one that makes the journal. -/
theorem isMarked_iff_journalSize (hlong : 2 * blockSize ≤ image.size) :
    isMarked (image.read ((Blob.found image).capacity - wordSize) wordSize) = true ↔
      0 < (Blob.found image).journalSize := by
  have hblocks : 0 < 2 * blockSize := by decide
  have hstandard : 0 < standardCapacity := by decide
  have hcapacity : 0 < min image.size standardCapacity := by omega
  cases hmark : isMarked (image.read ((Blob.found image).capacity - wordSize) wordSize) with
  | true => simp_all [Blob.found]
  | false => simp_all [Blob.found]

theorem ends_surveyDevice (path : String) (hlong : 2 * blockSize ≤ image.size)
    (hlimit : image.size < FileDisk.positionLimit) {a : Attached}
    (h : Device.AtHand number image a ∧ a.world = world) :
    (surveyDevice path image.size).Ends a
      (fun survey a' => Blob.Mountable image ∧ survey.Shows (Blob.found image) ∧ a'.world = world)
      (fun _ a' => ¬ Blob.Mountable image ∧ a'.world = world) := by
  have hblocks : 0 < 2 * blockSize := by decide
  refine Blob.ends_words Device.ends_read_atHand hlong (fun a ha => ?_) h
  refine .check_bind (fun e he => ⟨fun hmountable => ?_, ha.2⟩) fun partition hpartition => ?_
  · cases he.symm.trans ((Blob.ofWords_found hlong).mpr ⟨hmountable, rfl⟩)
  obtain ⟨hmountable, rfl⟩ := (Blob.ofWords_found hlong).mp hpartition
  obtain ⟨sectors, hsectors⟩ := exists_sectorsIn hlimit
  obtain ⟨slack, hslack⟩ := exists_slack hmountable
  have hsize : a.sectorSize = Disk.usualSectorSize := by
    obtain ⟨⟨handle, hdevice, -⟩, -⟩ := ha
    simp [Attached.sectorSize, hdevice]
  refine .get_bind ?_
  rw [hsize]
  refine .check_ok_bind hsectors (.check_ok_bind hslack ?_)
  refine (Device.ends_close_atHand (by omega) ha).bind (fun _ _ h => h.elim) fun _ a' hworld => .pure ?_
  exact ⟨hmountable, ⟨rfl, isMarked_iff_journalSize hlong, hslack, rfl⟩, hworld⟩

/-! ## Surveys and openings -/

/-- A file that is there is opened, and the world stays as it is. -/
theorem exists_run_openFile (hentry : world.files.entry? path = some (.file number)) :
    ∃ handle : FileHandle, (World.openFile path).run world = .ok (.file handle) world ∧
      handle.number = number ∧ (Device.file handle).Fresh world := by
  have hopen := World.run_openFile (FileStore.openFile_of_entry? hentry)
  exact ⟨_, hopen, rfl, World.fresh_of_openFile hopen⟩

theorem ends_openBlob {handle : FileHandle} (hfresh : (Device.file handle).Fresh world)
    (hbody : world.files.body handle.number = .regular image) (hsome : image.size ≠ 0)
    (name : String) :
    (openBlob name (Device.file handle)).Ends world
      (fun record _ => Blob.Mountable image ∧ record.partition = Blob.found image)
      (fun _ _ => ¬ Blob.Mountable image) := by
  obtain ⟨hthere, hlength⟩ := Device.atHand_of_fresh hfresh hbody
  have hmount := Blob.ends_mount_decided Device.ends_read_atHand name hsome hlength ⟨hthere, rfl⟩
  have hopen : (do
      let partition ← Blob.mount name
      return ⟨name, (← get).device, partition, 0⟩ : StepM Attached BlobRecord).Ends
      ⟨some (.file handle), world⟩
      (fun record _ => Blob.Mountable image ∧ record.partition = Blob.found image)
      (fun _ _ => ¬ Blob.Mountable image) :=
    hmount.bind (fun _ _ h => h) fun _ _ h => .get_bind (.pure h)
  have huse : (openBlob name (Device.file handle)).Ends world _ _ := Ends.focus hopen
  refine huse.mono ?_ ?_
  · rintro _ _ ⟨_, rfl, h⟩
    exact h
  · rintro _ _ ⟨_, rfl, h⟩
    exact h

theorem run_step {α : Type} (act : StepM World α) (world : World) :
    (step act).run world =
      match act.run world with
      | .ok value world => .ok value world
      | .error (.refused error) world => .error (.failed error) world
      | .error (.fault reason) world => .error (.fault reason) world := rfl

theorem run_survey {handle : FileHandle}
    (hentry : world.files.entry? path = some (.file number))
    (hopen : (World.openFile path).run world = .ok (.file handle) world) :
    let length := Disk.length (⟨some (.file handle), world⟩ : Attached)
    (survey path).run world =
      if length < 2 * blockSize then .error (.tooSmall path length) world
      else (step ((Device.file handle).use (surveyDevice path length))).run world := by
  intro length
  have hexists : world.files.pathExists path = true := by
    rw [FileStore.pathExists, hentry]
    rfl
  have hstep : (step (World.openFile path)).run world = .ok (.file handle) world := by
    rw [run_step, hopen]
  simp only [survey, EStateM.run_bind, EStateM.run_get, hexists, not_true_eq_false, if_false,
    hstep]
  by_cases hshort : length < 2 * blockSize
  · rw [if_pos hshort, if_pos hshort]
    rfl
  · rw [if_neg hshort, if_neg hshort]

/-- A survey of a file that is there ends well exactly if the file is mountable, and leaves the
world as it is. -/
theorem survey_cases (hentry : world.files.entry? path = some (.file number))
    (hbody : world.files.body number = .regular image)
    (hlimit : image.size < FileDisk.positionLimit) :
    (Blob.Mountable image ∧ ∃ found : Survey,
      (survey path).run world = .ok found world ∧ found.Shows (Blob.found image)) ∨
    (¬ Blob.Mountable image ∧ ∃ trouble, (survey path).run world = .error trouble world) := by
  obtain ⟨handle, hopen, rfl, hfresh⟩ := exists_run_openFile hentry
  obtain ⟨hthere, hlength⟩ := Device.atHand_of_fresh hfresh hbody
  have hrun := run_survey hentry hopen
  rw [hlength] at hrun
  dsimp only at hrun
  by_cases hshort : image.size < 2 * blockSize
  · rw [if_pos hshort] at hrun
    exact .inr ⟨fun hmountable => absurd hmountable.1 (Nat.not_le.mpr hshort), _, hrun⟩
  · rw [if_neg hshort, run_step] at hrun
    have hends := ends_surveyDevice path (Nat.le_of_not_lt hshort) hlimit ⟨hthere, rfl⟩
    have huse : ((Device.file handle).use (surveyDevice path image.size)).Ends world _ _ :=
      Ends.focus hends
    cases hsurvey : ((Device.file handle).use (surveyDevice path image.size)).run world with
    | ok found after =>
      rw [hsurvey] at hrun
      obtain ⟨hanswer, rfl⟩ := run_eq_ok_iff.mp hsurvey
      obtain ⟨a, hafter, hmountable, hshows, hworld⟩ := huse.value found hanswer
      rw [hafter, hworld] at hrun
      exact .inl ⟨hmountable, found, hrun, hshows⟩
    | error e after =>
      rw [hsurvey] at hrun
      obtain ⟨hanswer, rfl⟩ := run_eq_error_iff.mp hsurvey
      obtain ⟨a, hafter, hnot, hworld⟩ := huse.failure e hanswer
      rw [hafter, hworld] at hrun
      cases e with
      | refused error => exact .inr ⟨hnot, _, hrun⟩
      | fault reason => exact .inr ⟨hnot, _, hrun⟩

/-- Of any file that is there and not empty: a survey of it succeeds exactly if the blob in it
opens, shows the partition that it opens with, and leaves the world as it is, whether it succeeds
or not. -/
theorem survey_agrees_with_opening (hentry : world.files.entry? path = some (.file number))
    (hbody : world.files.body number = .regular image) (hsome : image.size ≠ 0)
    (hlimit : image.size < FileDisk.positionLimit) (name : String) :
    ∃ device, (World.openFile path).run world = .ok device world ∧
      ((∃ found, (survey path).run world = .ok found world) ↔
        ∃ record opened, (openBlob name device).run world = .ok record opened) ∧
      (∀ found record opened, (survey path).run world = .ok found world →
        (openBlob name device).run world = .ok record opened → found.Shows record.partition) ∧
      ((∃ found, (survey path).run world = .ok found world) ∨
        ∃ trouble, (survey path).run world = .error trouble world) := by
  obtain ⟨handle, hopen, rfl, hfresh⟩ := exists_run_openFile hentry
  have hends := ends_openBlob hfresh hbody hsome name
  refine ⟨.file handle, hopen, ?_⟩
  cases hblob : (openBlob name (Device.file handle)).run world with
  | ok record opened =>
    obtain ⟨hmountable, hpartition⟩ := hends.value record (run_eq_ok_iff.mp hblob).1
    obtain ⟨-, found, hrun, hshows⟩ | ⟨hnot, -⟩ := survey_cases hentry hbody hlimit
    · refine ⟨iff_of_true ⟨found, hrun⟩ ⟨record, opened, rfl⟩, ?_, .inl ⟨found, hrun⟩⟩
      intro other _ _ hother hrecord
      cases hrun.symm.trans hother
      cases hrecord
      rwa [hpartition]
    · exact absurd hmountable hnot
  | error e closed =>
    have hnot := hends.failure e (run_eq_error_iff.mp hblob).1
    obtain ⟨hmountable, -⟩ | ⟨-, trouble, hrun⟩ := survey_cases hentry hbody hlimit
    · exact absurd hmountable hnot
    · refine ⟨iff_of_false ?_ ?_, ?_, .inr ⟨trouble, hrun⟩⟩
      · rintro ⟨found, hfound⟩
        cases hrun.symm.trans hfound
      · rintro ⟨_, _, hrecord⟩
        cases hrecord
      · intro _ _ _ _ hrecord
        cases hrecord

/-- A working directory with a file of two blocks of zeros. -/
def twoBlocks : World :=
  let place := FileStore.workingDirectory ++ [.ofText "a"]
  ⟨∅, (FileStore.initial.create place (.regular (.zeros (2 * blockSize)))).2⟩

/-- The shortest blob there is opens and can be surveyed. -/
theorem survey_agrees_with_opening_two_blocks :
    ∃ device found record opened, (World.openFile "a").run twoBlocks = .ok device twoBlocks ∧
      (survey "a").run twoBlocks = .ok found twoBlocks ∧
      (openBlob "a" device).run twoBlocks = .ok record opened ∧ found.Shows record.partition := by
  have hentry : twoBlocks.files.entry? "a" = some (.file FileStore.initial.nextNumber) := by
    decide +kernel
  have hbody : twoBlocks.files.body FileStore.initial.nextNumber =
      .regular (.zeros (2 * blockSize)) := by
    simp [twoBlocks, FileStore.create, FileStore.createUnnamed, FileStore.body]
  obtain ⟨device, hdevice, hiff, hshows, -⟩ :=
    survey_agrees_with_opening hentry hbody (by decide) (by decide) "a"
  have hmountable : Blob.Mountable (.zeros (2 * blockSize)) :=
    Blob.mountable_of_blank (by decide) (Blob.found_zeros _)
  obtain ⟨-, found, hfound, -⟩ | ⟨hnot, -⟩ := survey_cases hentry hbody (by decide)
  · obtain ⟨record, opened, hrecord⟩ := hiff.mp ⟨found, hfound⟩
    exact ⟨device, found, record, opened, hdevice, hfound, hrecord, hshows _ _ _ hfound hrecord⟩
  · exact absurd hmountable hnot

end Command

end TwinRegion
