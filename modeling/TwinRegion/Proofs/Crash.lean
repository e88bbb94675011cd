/-
TwinRegion.Proofs.Crash — what a crash leaves of a database.

A crash forgets the partition and keeps the medium. What the next opening
finds is on the medium, and of the database that is its size word. Only a
sync of the database writes into the header block (`Change.byte_header`),
so the word always holds the length at the last such sync that the medium
took (`holds_run`), and since a blob stays sound, a medium that was
opened once can be opened again (`reopen_after_crash`).
-/
import TwinRegion.Proofs.Accepting

namespace TwinRegion

namespace Live

open TwinRegion.Partition RamDisk

/-! ## The header -/

/-- Nothing but a sync of the database writes into the header block. -/
theorem Change.byte_header {live next : Live} {action : Action} {ok : Bool} (hsound : live.Sound)
    (h : Change live action ok next) (hsync : ∀ flags, action ≠ .sync .database flags) {x : Nat}
    (hx : x < blockSize) : next.disk.image.byte x = live.disk.image.byte x := by
  have hlong := hsound.long
  have hword : wordSize ≤ blockSize := by decide
  have hruns : ∀ {offset : Nat} {data : Bytes},
      (lay data live.disk.image (Blob.storedRuns live.partition offset data live.disk)).byte x =
        live.disk.image.byte x := by
    refine byte_lay_of_outside fun run hrun => .inl ?_
    have := (Blob.storedRuns_bounds hsound.block_le hrun).1
    omega
  cases h with
  | read hdisk | databaseKept hdisk | journalSync hdisk => rw [hdisk.image_eq]
  | databaseWritten hguard hdisk => rw [hdisk.image_eq, Image.byte_write, if_neg (by omega)]
  | journalWritten hall hstop hdisk => rw [hdisk.image_eq, hruns]
  | journalCut hdisk => rw [hdisk.image_eq, hruns]
  | truncated | faulted => rfl
  | databaseSynced | databaseUnsynced => exact absurd rfl (hsync _)
  | erased htakes hdisk =>
    rw [hdisk.image_eq, Image.byte_write, if_neg (by omega), Image.byte_write, if_neg (by omega)]
  | halfErased hdisk => rw [hdisk.image_eq, byte_written_of_outside (.inl (by omega))]

/-- The database length at the last sync of the database that the medium took. -/
def keepSaved (live : Live) (action : Action) (saved : Nat) : Nat :=
  match action with
  | .sync .database _ =>
    if live.disk.takes 0 (sizeWord live.partition.databaseSize) then live.partition.databaseSize
    else saved
  | _ => saved

/-- The database length that is durable at the end of a run: that of the last sync that
the medium took, or the one at the start. -/
def saved (start : Live) (actions : List Action) : Nat :=
  track keepSaved start start.partition.databaseSize actions

/-- A sync of the database that succeeds saves its length. -/
theorem keepSaved_of_succeeds {live : Live} (hsound : live.Sound) {flags : Int32}
    (h : live.succeeds (.sync .database flags) = true) (saved : Nat) :
    keepSaved live (.sync .database flags) saved =
      (live.after (.sync .database flags)).partition.databaseSize := by
  have hchange := change_after hsound.block_le (.sync .database flags)
  rw [h] at hchange
  generalize live.after (.sync .database flags) = next at hchange
  cases hchange with
  | databaseSynced htakes _ => rw [keepSaved, if_pos htakes]

/-- A size word that was written is found again. -/
theorem sizeOfWord_write {image : Image} {databaseSize : Nat} (h : databaseSize < 1 <<< 32) :
    sizeOfWord ((image.write 0 (sizeWord databaseSize)).read 0 wordSize) = databaseSize := by
  have hread := image.read_write 0 (sizeWord databaseSize)
  rw [Blob.size_sizeWord] at hread
  rw [hread, sizeOfWord, sizeWord, Bytes.toNat_ofWord32, Nat.mod_eq_of_lt h]

/-- The medium holds `saved` as the length of the database, and the blob has room for it. -/
structure Holds (live : Live) (saved : Nat) : Prop where
  word : sizeOfWord (live.disk.image.read 0 wordSize) = saved
  fits : saved + blockSize ≤ live.partition.capacity

/-- A blob that was opened has its length from the medium. -/
theorem holds_of_mount {name : String} {disk : RamDisk} {start : Live}
    (h : (Blob.mount name : StepM RamDisk Partition).run disk = .ok start.partition start.disk) :
    start.Holds start.partition.databaseSize := by
  refine ⟨?_, (sound_of_mount h).fits⟩
  obtain ⟨hanswer, hreached⟩ := StepM.run_eq_ok_iff.mp h
  have hends := (Blob.ends_mount name disk).value _ hanswer
  rw [hreached] at hends
  rcases hends with ⟨hempty, hpartition, hdisk⟩ | ⟨-, hpartition, hdisk⟩
  · have hzero : start.disk.image.read 0 wordSize = Image.empty.read 0 wordSize := by
      refine Image.read_congr fun x _ hx => ?_
      have hlast : wordSize < standardCapacity - 1 := by decide
      rw [hdisk.image_eq, Image.byte_write, if_neg (by omega), Image.byte_empty]
      exact disk.image.byte_eq_zero (by omega)
    rw [hzero, hpartition]
    decide
  · rw [hdisk.image_eq, hpartition]
    rfl

/-- The size word is the length that was saved last, through every action. -/
theorem holds_after {live : Live} (hsound : live.Sound) {saved : Nat} (h : live.Holds saved)
    (action : Action) : (live.after action).Holds (keepSaved live action saved) := by
  have hchange := change_after hsound.block_le action
  by_cases hsync : ∃ flags, action = .sync .database flags
  · obtain ⟨flags, rfl⟩ := hsync
    have himage : (live.after (.sync .database flags)).disk.image =
        live.disk.written 0 (sizeWord live.partition.databaseSize) := by
      generalize live.succeeds (.sync .database flags) = ok at hchange
      generalize live.after (.sync .database flags) = next at hchange
      cases hchange with
      | databaseSynced _ hdisk | databaseUnsynced hdisk => exact hdisk.image_eq
    have hsize : live.partition.databaseSize < 1 <<< 32 := by
      have := hsound.fits
      have := hsound.capacity_lt
      omega
    constructor <;> simp only [himage, hchange.capacity_eq, written, keepSaved] <;> split
    · exact sizeOfWord_write hsize
    · exact h.word
    · exact hsound.fits
    · exact h.fits
  · have hkeep : keepSaved live action saved = saved := by
      unfold keepSaved
      split
      · exact absurd ⟨_, rfl⟩ hsync
      · rfl
    have hword : wordSize ≤ blockSize := by decide
    rw [hkeep]
    refine ⟨?_, hchange.capacity_eq ▸ h.fits⟩
    rw [← h.word]
    congr 1
    refine Image.read_congr fun x _ hx => hchange.byte_header hsound ?_ (by omega)
    exact fun flags heq => hsync ⟨flags, heq⟩

theorem holds_run {live : Live} (hsound : live.Sound) (h : live.Holds live.partition.databaseSize)
    (actions : List Action) : (live.run actions).Holds (live.saved actions) :=
  track_invariant Holds (fun _ => True) (fun _ action _ hsound _ h => holds_after hsound h action)
    hsound h fun _ _ => trivial

/-! ## Opening again -/

/-- A sound blob whose medium holds a length is found on its medium with that length. -/
theorem Holds.ends_mount {live : Live} (hsound : live.Sound) {saved : Nat} (h : live.Holds saved)
    (name : String) {faults : DiskFaults} (hreads : faults.reads = false) :
    (Blob.mount name : StepM RamDisk Partition).Ends { live.disk with faults := faults }
      (fun partition after =>
        partition = ⟨live.partition.capacity, saved,
          if isMarked (live.disk.image.read (live.partition.capacity - wordSize) wordSize)
          then live.partition.capacity else 0⟩ ∧
        Became { live.disk with faults := faults } live.disk.image after)
      (fun _ _ => False) := by
  have hfound : Blob.found live.disk.image = ⟨live.partition.capacity, saved,
      if isMarked (live.disk.image.read (live.partition.capacity - wordSize) wordSize)
      then live.partition.capacity else 0⟩ := by
    rw [Blob.found, ← hsound.capacity_eq, h.word]
  have hmountable : Blob.Mountable live.disk.image := by
    refine ⟨Nat.le_trans hsound.long hsound.capacity_le, ?_⟩
    rw [hfound]
    exact h.fits
  rw [← hfound]
  exact Blob.ends_mount_within name hreads hmountable

/-- The blob that the next opening finds. -/
theorem Holds.exists_reopened {live : Live} (hsound : live.Sound) {saved : Nat}
    (h : live.Holds saved) (name : String) {faults : DiskFaults} (hreads : faults.reads = false) :
    ∃ reopened : Live,
      (Blob.mount name : StepM RamDisk Partition).run { live.disk with faults := faults } =
        .ok reopened.partition reopened.disk ∧
      reopened.partition = ⟨live.partition.capacity, saved,
        if isMarked (live.disk.image.read (live.partition.capacity - wordSize) wordSize)
        then live.partition.capacity else 0⟩ ∧
      reopened.disk.image = live.disk.image ∧ reopened.disk.faults.reads = false := by
  obtain ⟨partition, hrun, hpartition, hafter⟩ := (h.ends_mount hsound name hreads).exists_value
  exact ⟨⟨partition, _⟩, hrun, hpartition, hafter.image_eq, hafter.reads_eq.trans hreads⟩

/-- While reads work, a sound blob gives the bytes at the addresses of a region as far as the region
reaches, unless it is longer than the blob. -/
theorem Sound.answer_read {live : Live} (h : live.Sound) (hreads : live.disk.faults.reads = false)
    (hjournal : live.partition.journalSize ≤ live.partition.capacity) {region : Region}
    {offset len : Nat} (hin : offset + len ≤ live.partition.regionSize region) :
    (Blob.read live.partition region offset len : StepM RamDisk Bytes).answer live.disk =
      .ok (live.disk.image.gather (address live.partition.capacity region) offset len) := by
  have hcapacity := h.capacity_lt
  have hfits := h.fits
  obtain ⟨bytes, hrun, rfl, -⟩ := (@Blob.ends_read_within live.partition live.disk region offset
    len hreads h.block_le h.capacity_le (by omega) (by omega) (by omega) hin).exists_value
  exact (StepM.run_eq_ok_iff.mp hrun).1

/-- Reads of the database depend on its length and its bytes, and beyond that on the length of
the medium and on whether reads work. -/
theorem answer_read_database {p q : Partition} {a b : RamDisk}
    (hsize : p.databaseSize = q.databaseSize) (hlength : a.image.size = b.image.size)
    (hbytes : ∀ i < q.databaseSize,
      a.image.byte (blockSize + i) = b.image.byte (blockSize + i))
    (hreads : a.faults.reads = b.faults.reads) (offset len : Nat) :
    (Blob.read p .database offset len : StepM RamDisk Bytes).answer a =
      (Blob.read q .database offset len).answer b := by
  have hguard : p.guardRead .database offset len = q.guardRead .database offset len := by
    have hregion : p.regionSize .database = q.regionSize .database := hsize
    rw [guardRead, guardRead, hregion]
  simp only [Blob.read, hguard, Disk.ready, pure_bind, StepM.answer_check_bind]
  cases hpass : q.guardRead .database offset len with
  | error e => rfl
  | ok _ =>
    obtain ⟨-, hin⟩ := guardRead_eq_ok_iff.mp hpass
    simp only [regionSize] at hin
    cases hplace : databaseAddress offset with
    | error e => rfl
    | ok place =>
      obtain ⟨-, rfl⟩ := Word.add_eq_ok_iff.mp hplace
      refine RamDisk.answer_read_congr hlength (Image.read_congr fun x hle hlt => ?_) hreads
      have hbyte := hbytes (x - blockSize) (by omega)
      rwa [Nat.add_sub_cancel' (by omega)] at hbyte

/-- After any run from an opened blob, and a crash, the medium opens again: with the same
capacity and with the database length that was saved last. Right after a sync of the
database, that is the whole database. -/
theorem reopen_after_crash {name again : String} {disk : RamDisk} {start : Live} {faults : DiskFaults}
    (hopen : (Blob.mount name : StepM RamDisk Partition).run disk = .ok start.partition start.disk)
    (hreads : faults.reads = false) (actions : List Action) :
    ∃ reopened : Live,
      (Blob.mount again : StepM RamDisk Partition).run
          { (start.run actions).disk with faults := faults } =
        .ok reopened.partition reopened.disk ∧
      reopened.partition.capacity = start.partition.capacity ∧
      reopened.partition.databaseSize = start.saved actions ∧
      ∀ before flags, actions = before ++ [.sync .database flags] →
        (start.run before).succeeds (.sync .database flags) = true →
        reopened.partition.databaseSize = (start.run actions).partition.databaseSize ∧
        ((start.run actions).disk.faults.reads = false → ∀ offset len,
          (Blob.read reopened.partition .database offset len : StepM RamDisk Bytes).answer
              reopened.disk =
            (Blob.read (start.run actions).partition .database offset len).answer
              (start.run actions).disk) := by
  have hsound := sound_of_mount hopen
  have hholds := holds_run hsound (holds_of_mount hopen) actions
  have hends := hholds.ends_mount (sound_run hsound actions) again hreads
  obtain ⟨partition, hrun, rfl, hafter⟩ := hends.exists_value
  refine ⟨⟨_, _⟩, hrun, (lengths_run hsound actions).1, rfl, ?_⟩
  rintro before flags rfl hsucceeds
  have hsaved : start.saved (before ++ [.sync .database flags]) =
      (start.run (before ++ [.sync .database flags])).partition.databaseSize := by
    rw [saved, track_append, run_append]
    exact keepSaved_of_succeeds (sound_run hsound before) hsucceeds _
  refine ⟨hsaved, fun hlast offset len => ?_⟩
  exact answer_read_database hsaved (by rw [hafter.image_eq]) (fun _ _ => by rw [hafter.image_eq])
    (hafter.reads_eq.trans (hreads.trans hlast.symm)) offset len

theorem reopen_after_first_sync :
    ∃ reopened : Live,
      (Blob.mount "a" : StepM RamDisk Partition).run
          { (fresh.run [.write .database 0 #[7], .sync .database 0]).disk with faults := .none } =
        .ok reopened.partition reopened.disk ∧
      reopened.partition.databaseSize = 1 := by
  have hguard : (Partition.blank standardCapacity).guardDatabaseWrite 0 1 = .ok () :=
    guardDatabaseWrite_eq_ok_iff.mpr (by decide)
  have hwrite := after_of_run_ok (@run_write fresh .database 0 #[7] _ _
    (Blob.run_write_database healthy_materialised hguard (by decide)))
  have hhealthy : (fresh.after (.write .database 0 #[7])).disk.Healthy :=
    hwrite ▸ healthy_materialised.put _ _
  obtain ⟨disk, hsync, -⟩ := run_sync_database hhealthy 0
  obtain ⟨reopened, hrun, -, -, hlast⟩ := @reopen_after_crash "a" "a" .growable fresh .none
    (Blob.run_mount_growable "a") rfl [.write .database 0 #[7], .sync .database 0]
  have hsize := (hlast [.write .database 0 #[7]] 0 rfl (succeeds_of_run_ok hsync)).1
  refine ⟨reopened, hrun, hsize.trans ?_⟩
  rw [run_cons, run_cons, run_nil, after_of_run_ok hsync, hwrite]
  rfl

end Live

end TwinRegion
