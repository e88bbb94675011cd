/-
TwinRegion.Proofs.Stopping — where a journal write stops.

A journal write goes run by run and stops at the first run that would touch
the database. The places of the runs come down (`Tiles.descends`): only the
first run may start inside a block, and a run in front of the blob lies in
the header block, where nothing is admitted. So the admitted runs are the
leading ones (`filter_admits`), the last run decides about the whole
request, and a write that stops leaves the admitted runs behind and nothing
else (`journal_write_stops_at_database`).

The device is any that takes the writes between the database and the end of
the blob (`Disk.Accepts`). That it may fail all others shows that none is
made.
-/
import Mathlib.Data.List.TakeWhile
import TwinRegion.Proofs.Holding
import TwinRegion.Proofs.Permutation

namespace TwinRegion

open StepM Vfs TwinRegion.Partition

/-! ## Devices that take writes -/

/-- A disk of which `sound` holds is ready and takes the writes between `floor` and `limit`,
which go into its contents and leave it sound. -/
structure Disk.Accepts {δ : Type} [Disk δ] (contents : δ → Image) (floor limit : Nat)
    (sound : δ → Prop) : Prop where
  ready : ∀ s, sound s → (Disk.ready : StepM δ Unit).run s = .ok () s
  write : ∀ s offset data, sound s → floor ≤ offset → offset + data.size ≤ limit →
    (Disk.write offset data : StepM δ Unit).Ends s
      (fun _ s' => sound s' ∧ contents s' = (contents s).write offset data) (fun _ _ => False)

theorem Disk.Accepts.mono {δ : Type} [Disk δ] {contents : δ → Image} {floor floor' limit : Nat}
    {sound : δ → Prop} (h : Disk.Accepts contents floor limit sound) (hfloor : floor ≤ floor') :
    Disk.Accepts contents floor' limit sound :=
  ⟨h.ready, fun s offset data hs hle => h.write s offset data hs (Nat.le_trans hfloor hle)⟩

theorem Disk.Accepts.ends_ready {δ : Type} [Disk δ] {contents : δ → Image} {floor limit : Nat}
    {sound : δ → Prop} {s : δ} (h : Disk.Accepts contents floor limit sound) (hs : sound s) :
    (Disk.ready : StepM δ Unit).Ends s (fun _ s' => s' = s) (fun _ _ => False) :=
  .of_run_ok (h.ready s hs) rfl

/-- The bytes behind a device that was not given up. -/
def Attached.image (a : Attached) : Image := a.device.elim .empty fun device => device.image a.world

/-- The medium fails no write that ends at `limit` or below. -/
structure RamDisk.Obliging (limit : Nat) (disk : RamDisk) : Prop where
  writes_eq : disk.faults.writes = false
  writesLeft_eq : disk.faults.writesLeft = none
  bound_ge : ∀ bound, disk.bound = some bound → limit ≤ bound
  limit_le : limit ≤ maxLength

namespace RamDisk

variable {disk : RamDisk} {limit : Nat}

theorem Healthy.obliging (h : disk.Healthy) (hlimit : limit ≤ maxLength) : disk.Obliging limit where
  writes_eq := by rw [h.faults_eq, DiskFaults.none]
  writesLeft_eq := by rw [h.faults_eq, DiskFaults.none]
  bound_ge bound hbound := by rw [h.bound_eq] at hbound; cases hbound
  limit_le := hlimit

theorem Obliging.run_write (h : disk.Obliging limit) {offset : Nat} {data : Bytes}
    (hin : offset + data.size ≤ limit) :
    (RamDisk.write offset data).run disk = .ok () (disk.put offset data) := by
  obtain ⟨hadd, hguard⟩ := add_of_le_maxLength (Nat.le_trans hin h.limit_le)
  cases hbound : disk.bound with
  | none =>
    simp [RamDisk.write, record, spendWrite, h.writes_eq, h.writesLeft_eq, hbound, hadd, hguard, put]
  | some bound =>
    have hle : ¬ bound < offset + data.size :=
      Nat.not_lt.mpr (Nat.le_trans hin (h.bound_ge bound hbound))
    simp [RamDisk.write, record, spendWrite, h.writes_eq, h.writesLeft_eq, hbound, hadd, hguard,
      hle, put]

end RamDisk

/-- Inside a file also an empty write is a write. -/
theorem FileBody.written_within {body : Image} {offset : Nat} {data : Bytes}
    (hin : offset + data.size ≤ body.size) :
    (FileBody.regular body).written offset data = .regular (body.write offset data) := by
  rw [FileBody.written]
  split
  · rename_i hempty
    have hsize : data.size = 0 := by simpa [Array.isEmpty] using hempty
    congr 1
    refine Image.ext_byte ?_ fun x => ?_
    · rw [Image.size_write]
      omega
    · rw [Image.byte_write, if_neg (by omega)]
  · rfl

namespace Attached

/-- A medium in memory takes its writes. -/
theorem accepts_ram (name : String) (limit : Nat) :
    Disk.Accepts image 0 limit fun a =>
      a.device = some (.ram name) ∧ (a.world.medium name).Obliging limit where
  ready a h := by simp [Disk.ready, h.1]
  write a offset data := by
    rintro ⟨hdevice, hobliging⟩ - hin
    have hrun : (Disk.write offset data : StepM Attached Unit).run a =
        .ok () { a with
          world := a.world.setMedium name ((a.world.medium name).put offset data) } := by
      simp only [Disk.write, call, EStateM.run_bind, EStateM.run_get, hdevice, focusRam, run_focus,
        hobliging.run_write hin]
    refine .of_run_ok hrun ⟨⟨hdevice, ?_⟩, ?_⟩
    · rw [World.medium_setMedium, if_pos rfl]
      exact ⟨hobliging.1, hobliging.2, hobliging.3, hobliging.4⟩
    · simp only [image, hdevice, Option.elim_some, Device.image, Device.origin, World.contents,
        World.medium_setMedium, if_pos, FileBody.image]
      rfl

/-- So does a file that is long enough. -/
theorem accepts_file (number : Nat) {limit : Nat} (hlimit : limit < FileDisk.positionLimit) :
    Disk.Accepts image 0 limit fun a => ∃ handle body,
      a.device = some (.file handle) ∧ handle.number = number ∧ (a.world.fileDisk handle).Steady ∧
        a.world.contents (.inr number) = .regular body ∧ limit ≤ body.size where
  ready a h := by
    obtain ⟨handle, body, hdevice, -⟩ := h
    simp [Disk.ready, hdevice]
  write a offset data := by
    rintro ⟨handle, body, hdevice, rfl, hsteady, hbody, hlong⟩ - hin
    have hwrite := FileDisk.ends_write_within hsteady hbody (Nat.lt_of_le_of_lt hin hlimit)
    have hcall : (focusFile handle (FileDisk.write offset data)).Ends a _ _ := Ends.focus hwrite
    have hrun : (Disk.write offset data : StepM Attached Unit).run a =
        (focusFile handle (FileDisk.write offset data)).run a := by
      simp only [Disk.write, call, EStateM.run_bind, EStateM.run_get, hdevice]
    have himage : image a = body := by
      simp only [image, hdevice, Option.elim_some, Device.image, Device.origin, hbody,
        FileBody.image]
    refine (hcall.of_run_eq hrun).mono ?_ ?_
    · rintro _ _ ⟨disk, rfl, hnumber, hafter, hdisk⟩
      have hsame : disk.handle.number = handle.number := hnumber
      have hcontents : (a.world.setFileDisk disk).contents (.inr handle.number) =
          .regular (body.write offset data) := by
        rw [World.contents_setFileDisk, if_pos (by rw [hsame]), hafter,
          ← FileBody.written_within (Nat.le_trans hin hlong)]
        exact congrArg (FileBody.written offset data) hbody
      refine ⟨⟨disk.handle, body.write offset data, rfl, hsame, ?_, hcontents, ?_⟩, ?_⟩
      · rwa [World.fileDisk_setFileDisk]
      · rw [Image.size_write]
        omega
      · rw [himage]
        simp only [image, Option.elim_some, Device.image, Device.origin]
        rw [hsame, hcontents, FileBody.image]
    · rintro _ _ ⟨_, -, hno⟩
      exact hno

end Attached

/-! ## Runs that are admitted -/

namespace Partition

/-- The guard of a journal write lets the run pass. -/
def admits (partition : Partition) (run : Extent) : Bool :=
  (partition.guardJournalRun run.address run.len).isOk

variable {partition : Partition} {run last : Extent} {runs : List Extent}
  {capacity logical start : Nat}

theorem guardJournalRun_of_admits (h : partition.admits run = true) :
    partition.guardJournalRun run.address run.len = .ok () := by
  unfold admits at h
  cases hguard : partition.guardJournalRun run.address run.len with
  | ok _ => rfl
  | error e => rw [hguard] at h; cases h

theorem admits_iff (hlim : partition.databaseSize + blockSize < Word.limit) :
    partition.admits run = true ↔ partition.databaseSize + blockSize ≤ run.address := by
  constructor
  · intro h
    exact (guardJournalRun_eq_ok_iff.mp (guardJournalRun_of_admits h)).2
  · intro h
    rw [admits, guardJournalRun_eq_ok_iff.mpr ⟨hlim, h⟩]
    rfl

/-- A run that is not admitted is refused by its place and length. -/
theorem guardJournalRun_of_not_admits (hlim : partition.databaseSize + blockSize < Word.limit)
    (h : partition.admits run = false) :
    partition.guardJournalRun run.address run.len =
      .error (.refused (.noRoom .journal run.address run.len)) := by
  have hadd : Word.add partition.databaseSize blockSize =
      .ok (partition.databaseSize + blockSize) := Word.add_eq_ok_iff.mpr ⟨hlim, rfl⟩
  have hlow : run.address < partition.databaseSize + blockSize := by
    rw [← Nat.not_le, ← admits_iff hlim, h]
    exact Bool.false_ne_true
  rw [guardJournalRun, hadd, ok_bind, if_pos hlow]
  rfl

/-- The places of the runs come down: all but the first start a block, and a block that begins
in front of the blob is put at its front. -/
theorem Tiles.descends (h : Tiles capacity logical start runs) :
    runs.Pairwise fun run later => later.address ≤ run.address := by
  induction h with
  | nil => exact .nil
  | @cons logical start len rest _ _ hfull htail ih =>
    refine List.pairwise_cons.mpr ⟨fun later hlater => ?_, ih⟩
    cases htail with
    | nil => cases hlater
    | cons =>
      have hnext : place capacity (logical + len) ≤ place capacity logical := by
        have hlen := hfull (List.cons_ne_nil _ _)
        unfold place blockSize at *
        omega
      rcases List.mem_cons.mp hlater with rfl | hmore
      · exact hnext
      · exact Nat.le_trans ((List.pairwise_cons.mp ih).1 later hmore) hnext

/-- The admitted runs of a request come first. -/
theorem filter_admits (hlim : partition.databaseSize + blockSize < Word.limit)
    (h : runs.Pairwise fun run later => later.address ≤ run.address) :
    runs.filter partition.admits = runs.takeWhile partition.admits := by
  induction h with
  | nil => rfl
  | @cons run rest hlower _ ih =>
    cases hrun : partition.admits run with
    | true => rw [List.filter_cons_of_pos hrun, List.takeWhile_cons_of_pos hrun, ih]
    | false =>
      rw [List.takeWhile_cons_of_neg (by simp [hrun]), List.filter_cons_of_neg (by simp [hrun])]
      refine List.filter_eq_nil_iff.mpr fun later hlater hadmitted => ?_
      have habove := (admits_iff hlim).mp hadmitted
      have hup : partition.admits run = true :=
        (admits_iff hlim).mpr (Nat.le_trans habove (hlower later hlater))
      rw [hrun] at hup
      cases hup

/-- The last run lies lowest. -/
theorem address_last_le (h : runs.Pairwise fun run later => later.address ≤ run.address)
    (hlast : runs.getLast? = some last) : ∀ run ∈ runs, last.address ≤ run.address := by
  intro run hrun
  obtain ⟨leading, rfl⟩ := List.getLast?_eq_some_iff.mp hlast
  rcases List.mem_append.mp hrun with hleading | hend
  · exact (List.pairwise_append.mp h).2.2 run hleading last List.mem_cons_self
  · rw [List.mem_singleton.mp hend]

/-- All runs of a request are admitted if the last one is. -/
theorem admits_of_last (hlim : partition.databaseSize + blockSize < Word.limit)
    (h : runs.Pairwise fun run later => later.address ≤ run.address)
    (hlast : runs.getLast? = some last) (hadmits : partition.admits last = true) :
    ∀ run ∈ runs, partition.admits run = true := fun run hrun =>
  (admits_iff hlim).mpr
    (Nat.le_trans ((admits_iff hlim).mp hadmits) (address_last_le h hlast run hrun))

/-- A byte of a tiling's runs has its place there by its number in the journal. -/
theorem Tiles.exists_place (h : Tiles capacity logical start runs) (hrun : run ∈ runs) {x : Nat}
    (hle : run.address ≤ x) (hlt : x < run.address + run.len) :
    ∃ i < span runs, x = place capacity (logical + i) := by
  obtain ⟨first, hfirst, hend, -, haddress, hblock⟩ := h.exists_range hrun
  have hplace := @place_add capacity first (x - run.address) (by omega)
  refine ⟨first + (x - run.address) - logical, by omega, ?_⟩
  rw [show logical + (first + (x - run.address) - logical) = first + (x - run.address) by omega,
    hplace, ← haddress]
  omega

/-- Tiles above the header put their bytes in the places of the journal. -/
theorem byte_lay_place (h : Tiles capacity logical 0 runs) {data : Bytes} (image : Image)
    (hdata : span runs ≤ data.size) (haddress : ∀ run ∈ runs, blockSize ≤ run.address) {i : Nat}
    (hi : i < span runs) :
    (lay data image runs).byte (place capacity (logical + i)) = data.getD i 0 := by
  obtain ⟨run, hrun, hle⟩ := h.exists_run (Nat.le_add_right logical i) (Nat.add_lt_add_left hi _)
  have hhoused : Housed capacity (logical + i) :=
    housed_of_le_place (Nat.le_trans (haddress run hrun) hle)
  rw [byte_lay h data image (by omega) haddress hhoused, if_pos (by omega)]
  congr 1
  omega

/-- Bytes in other places stay. -/
theorem byte_lay_of_no_place (h : Tiles capacity logical start runs) (data : Bytes) (image : Image)
    {x : Nat} (hx : ∀ i < span runs, x ≠ place capacity (logical + i)) :
    (lay data image runs).byte x = image.byte x := by
  refine byte_lay_of_outside fun run hrun => ?_
  by_contra hin
  obtain ⟨i, hi, hplace⟩ := h.exists_place hrun (x := x) (by omega) (by omega)
  exact hx i hi hplace

end Partition

/-! ## Writing until a run is refused -/

namespace Blob

variable {δ : Type} [Disk δ] {contents : δ → Image} {sound : δ → Prop} {partition : Partition}
  {offset limit : Nat} {data : Bytes} {runs : List Extent} {s : δ}

/-- On a disk that takes writes above the database, the runs are laid up to the first that is not
admitted. -/
theorem ends_writeRuns_accepts
    (haccepts : Disk.Accepts contents (partition.databaseSize + blockSize) limit sound)
    (hlim : partition.databaseSize + blockSize < Word.limit) (hsize : data.size < Word.limit)
    (hruns : ∀ run ∈ runs, run.address + run.len ≤ limit ∧ run.bufferStart + run.len ≤ data.size)
    (hs : sound s) :
    (writeRuns partition data runs : StepM δ Unit).Ends s
      (fun _ s' => runs.takeWhile partition.admits = runs ∧ sound s' ∧
        contents s' = lay data (contents s) runs)
      (fun e s' => (∃ first, runs.find? (fun run => !partition.admits run) = some first ∧
          e = .refused (.noRoom .journal first.address first.len)) ∧ sound s' ∧
        contents s' = lay data (contents s) (runs.takeWhile partition.admits)) := by
  induction runs generalizing s with
  | nil => exact .pure ⟨rfl, hs, rfl⟩
  | cons run rest ih =>
    obtain ⟨hin, hpart⟩ := hruns run List.mem_cons_self
    rw [writeRuns]
    cases hrun : partition.admits run with
    | false =>
      rw [guardJournalRun_of_not_admits hlim hrun]
      refine .refuse_bind ⟨⟨run, ?_, rfl⟩, hs, ?_⟩
      · rw [List.find?_cons_of_pos (by rw [hrun]; rfl)]
      · rw [List.takeWhile_cons_of_neg (by simp [hrun]), lay]
    | true =>
      have hslice : data.slice run.bufferStart run.len =
          .ok (data.extract run.bufferStart (run.bufferStart + run.len)) :=
        slice_eq_ok_iff.mpr ⟨by omega, hpart, rfl⟩
      have hextract := size_extract_le data run.bufferStart run.len
      refine .check_ok_bind (guardJournalRun_of_admits hrun) (.check_ok_bind hslice ?_)
      refine (haccepts.write s run.address _ hs ((admits_iff hlim).mp hrun) (by omega)).bind
        (fun _ _ h => h.elim) fun _ next hnext => ?_
      obtain ⟨hnext, hcontents⟩ := hnext
      have hrest := ih (fun later hlater => hruns later (List.mem_cons_of_mem _ hlater)) hnext
      rw [hcontents] at hrest
      rw [List.takeWhile_cons_of_pos hrun, List.find?_cons_of_neg (by simp [hrun])]
      refine hrest.mono ?_ fun e s' h => h
      rintro _ s' ⟨hall, hsound, hlaid⟩
      exact ⟨by rw [hall], hsound, hlaid⟩

/-- A journal write whose end is well within 64 bits fails for want of room only, and then it has
laid the runs in front of the one that it was refused for. -/
theorem ends_write_journal_accepts
    (haccepts : Disk.Accepts contents (partition.databaseSize + blockSize) partition.capacity sound)
    (hfits : partition.databaseSize + blockSize ≤ partition.capacity)
    (hcapacity : partition.capacity < Word.limit)
    (hend : offset + data.size + blockSize ≤ Word.limit) (hs : sound s) :
    (write partition .journal offset data : StepM δ Partition).Ends s
      (fun next s' =>
        (partition.extents offset data.size).runs.takeWhile partition.admits =
          (partition.extents offset data.size).runs ∧
        next = { partition with journalSize := max partition.journalSize (offset + data.size) } ∧
        sound s' ∧ contents s' = lay data (contents s) (partition.extents offset data.size).runs)
      (fun e s' =>
        (∃ first, (partition.extents offset data.size).runs.find?
            (fun run => !partition.admits run) = some first ∧
          e = .refused (.noRoom .journal first.address first.len)) ∧ sound s' ∧
        contents s' = lay data (contents s)
          ((partition.extents offset data.size).runs.takeWhile partition.admits)) := by
  have hblock : blockSize ≤ partition.capacity := Nat.le_trans (Nat.le_add_left ..) hfits
  obtain ⟨hstop, -, hruns⟩ := extents_whole hblock hcapacity hend
  refine .check_ok_bind (Word.add_eq_ok_iff.mpr ⟨by unfold blockSize at hend; omega, rfl⟩) ?_
  refine (haccepts.ends_ready hs).bind (fun _ _ h => h.elim) ?_
  rintro _ _ rfl
  refine (ends_writeRuns_accepts haccepts (by omega) (by unfold blockSize at hend; omega) hruns hs).bind
    (fun _ _ h => h) ?_
  rintro _ s' ⟨hall, hsound, hlaid⟩
  exact .check_ok_bind (by rw [finish, hstop]) (.pure ⟨hall, rfl, hsound, hlaid⟩)

end Blob

/-! ## Writes of a record -/

namespace Vfs

variable {vfs : Vfs} {handle : Handle} {id : BlobId} {record : BlobRecord}
  {sound : Attached → Prop} {partition : Partition} {image : Image} {offset : Nat} {data : Bytes}

/-- A write settles the record: with the partition that it answers with, or as it was. -/
theorem ends_write {onValue : Partition → Attached → Prop} {onFailure : Failure → Attached → Prop}
    (hrecord : vfs.registry.record? handle.blob = some record)
    (h : (Blob.write record.partition handle.region offset data : StepM Attached Partition).Ends
      (attached record vfs) onValue onFailure) :
    (write handle offset data).Ends vfs
      (fun _ vfs' => ∃ next a, vfs' = settle handle.blob next a vfs ∧ onValue next a)
      (fun e vfs' => ∃ a, vfs' = settle handle.blob record.partition a vfs ∧ onFailure e a) := by
  have hblob : (onBlob handle.blob fun partition =>
      Blob.write partition handle.region offset data).Ends vfs _ _ :=
    (Ends.focus h).of_run_eq (run_onBlob _ hrecord)
  refine hblob.bind ?_ ?_
  · rintro e _ ⟨a, rfl, hfailed⟩
    exact ⟨a, setAttached_eq hrecord a, hfailed⟩
  · rintro next _ ⟨a, rfl, hwritten⟩
    refine .modifies ⟨next, a, ?_, hwritten⟩
    simp only [setAttached_eq hrecord, settle, modifyRecord_modifyRecord]

/-- The blob of a record: its partition, and the bytes of its device, of which `sound` holds. -/
def BlobIs (vfs : Vfs) (id : BlobId) (sound : Attached → Prop) (partition : Partition)
    (image : Image) : Prop :=
  ∃ record, vfs.registry.record? id = some record ∧ record.partition = partition ∧
    sound (attached record vfs) ∧ (attached record vfs).image = image

theorem blobIs_settle {a : Attached} (hrecord : vfs.registry.record? id = some record)
    (hsound : sound a) (himage : a.image = image) :
    (settle id partition a vfs).BlobIs id sound partition image :=
  ⟨{ record with device := a.device, partition := partition },
    by rw [settle, record?_modifyRecord, hrecord, Option.map_some], rfl, hsound, himage⟩

theorem ends_write_journal (hblob : vfs.BlobIs handle.blob sound partition image)
    (hregion : handle.region = .journal)
    (haccepts : Disk.Accepts Attached.image (partition.databaseSize + blockSize)
      partition.capacity sound)
    (hfits : partition.databaseSize + blockSize ≤ partition.capacity)
    (hcapacity : partition.capacity < Word.limit)
    (hend : offset + data.size + blockSize ≤ Word.limit) :
    (write handle offset data).Ends vfs
      (fun _ vfs' =>
        (partition.extents offset data.size).runs.takeWhile partition.admits =
          (partition.extents offset data.size).runs ∧
        vfs'.BlobIs handle.blob sound
          { partition with journalSize := max partition.journalSize (offset + data.size) }
          (lay data image (partition.extents offset data.size).runs))
      (fun e vfs' =>
        (∃ first, (partition.extents offset data.size).runs.find?
            (fun run => !partition.admits run) = some first ∧
          e = .refused (.noRoom .journal first.address first.len)) ∧
        vfs'.BlobIs handle.blob sound partition
          (lay data image
            ((partition.extents offset data.size).runs.takeWhile partition.admits))) := by
  obtain ⟨region, id, level⟩ := handle
  obtain rfl : region = .journal := hregion
  obtain ⟨record, hrecord, rfl, hsound, rfl⟩ := hblob
  refine (ends_write hrecord
    (Blob.ends_write_journal_accepts haccepts hfits hcapacity hend hsound)).mono ?_ ?_
  · rintro _ _ ⟨_, a, rfl, hall, rfl, ha, hlaid⟩
    exact ⟨hall, blobIs_settle hrecord ha hlaid⟩
  · rintro e _ ⟨a, rfl, hfirst, ha, hlaid⟩
    exact ⟨hfirst, blobIs_settle hrecord ha hlaid⟩

theorem exists_getLast_extents (hfits : partition.databaseSize + blockSize ≤ partition.capacity)
    (hcapacity : partition.capacity < Word.limit) (hsome : 0 < data.size)
    (hend : offset + data.size + blockSize ≤ Word.limit) :
    span (partition.extents offset data.size).runs = data.size ∧
      ∃ last, (partition.extents offset data.size).runs.getLast? = some last := by
  obtain ⟨-, hspan, -⟩ :=
    extents_whole (Nat.le_trans (Nat.le_add_left ..) hfits) hcapacity hend
  refine ⟨hspan, _, List.getLast?_eq_some_getLast fun hnil => ?_⟩
  rw [hnil, span_nil] at hspan
  omega

/-- The last run of a journal write decides about it. -/
theorem answer_write_journal_iff (hblob : vfs.BlobIs handle.blob sound partition image)
    (hregion : handle.region = .journal)
    (haccepts : Disk.Accepts Attached.image (partition.databaseSize + blockSize)
      partition.capacity sound)
    (hfits : partition.databaseSize + blockSize ≤ partition.capacity)
    (hcapacity : partition.capacity < Word.limit)
    (hend : offset + data.size + blockSize ≤ Word.limit) {last : Extent}
    (hlast : (partition.extents offset data.size).runs.getLast? = some last) :
    (write handle offset data).answer vfs = .ok () ↔
      partition.databaseSize + blockSize ≤ last.address := by
  have hlim : partition.databaseSize + blockSize < Word.limit := by omega
  have hends := ends_write_journal hblob hregion haccepts hfits hcapacity hend
  constructor
  · intro hok
    have hall := List.takeWhile_eq_self_iff.mp (hends.value () hok).1
    exact (admits_iff hlim).mp (hall last (List.mem_of_getLast? hlast))
  · intro hle
    have hall := admits_of_last hlim (tiles_extents ..).descends hlast ((admits_iff hlim).mpr hle)
    cases hanswer : (write handle offset data).answer vfs with
    | ok _ => rfl
    | error e =>
      obtain ⟨⟨first, hfirst, -⟩, -⟩ := hends.failure e hanswer
      have hrefused := List.find?_some hfirst
      rw [hall first (List.mem_of_find?_eq_some hfirst)] at hrefused
      cases hrefused

/-- On a device that takes the writes between the database and the end of the blob: the admitted
runs of a journal write come first and lie there. The write succeeds if its last run does, and the
journal then reaches as far as the write. Otherwise it is refused with the place and the length of
the first run that is not admitted, and the partition stays. Either way the device has been given
the admitted runs: their bytes are in their places, and all others are as they were. -/
theorem journal_write_stops_at_database (hblob : vfs.BlobIs handle.blob sound partition image)
    (hregion : handle.region = .journal)
    (haccepts : Disk.Accepts Attached.image (partition.databaseSize + blockSize)
      partition.capacity sound)
    (hfits : partition.databaseSize + blockSize ≤ partition.capacity)
    (hcapacity : partition.capacity < Word.limit) (hsome : 0 < data.size)
    (hend : offset + data.size < 1 <<< 63) :
    let runs := (partition.extents offset data.size).runs
    let accepted := runs.filter partition.admits
    let answer := (write handle offset data).answer vfs
    let reached := (write handle offset data).reached vfs
    let after := lay data image accepted
    ∃ last, runs.getLast? = some last ∧ accepted <+: runs ∧
      (∀ run ∈ accepted, partition.databaseSize + blockSize ≤ run.address ∧
        run.address + run.len ≤ partition.capacity) ∧
      (answer = .ok () ↔ partition.databaseSize + blockSize ≤ last.address) ∧
      (answer = .ok () → span accepted = data.size ∧
        reached.BlobIs handle.blob sound
          { partition with journalSize := max partition.journalSize (offset + data.size) } after) ∧
      (answer ≠ .ok () →
        (∃ first, runs.find? (fun run => !partition.admits run) = some first ∧
          answer = .error (.refused (.noRoom .journal first.address first.len))) ∧
        reached.BlobIs handle.blob sound partition after) ∧
      (∀ i < span accepted, after.byte (place partition.capacity (offset + i)) = data.getD i 0) ∧
      (∀ x, (∀ i < span accepted, x ≠ place partition.capacity (offset + i)) →
        after.byte x = image.byte x) ∧
      (partition.capacity ≤ image.size → after.size = image.size) ∧
      ∀ x < partition.databaseSize + blockSize, after.byte x = image.byte x := by
  intro runs accepted answer reached after
  have hlim : partition.databaseSize + blockSize < Word.limit := by omega
  have hlong : offset + data.size + blockSize ≤ Word.limit := by
    unfold Word.limit blockSize
    omega
  have htiles : Tiles partition.capacity offset 0 runs := tiles_extents ..
  obtain ⟨hspan, last, hlast⟩ := @exists_getLast_extents partition offset data hfits hcapacity hsome hlong
  have hfilter : accepted = runs.takeWhile partition.admits := filter_admits hlim htiles.descends
  have hleading : accepted <+: runs := hfilter ▸ List.takeWhile_prefix _
  have hparts : Tiles partition.capacity offset 0 accepted := htiles.of_leading hleading
  have hdata : span accepted ≤ data.size := hspan ▸ span_le_of_leading hleading
  have habove : ∀ run ∈ accepted, partition.databaseSize + blockSize ≤ run.address ∧
      run.address + run.len ≤ partition.capacity := by
    intro run hrun
    exact ⟨(admits_iff hlim).mp (List.mem_filter.mp hrun).2,
      extents_bounds (Nat.le_trans (Nat.le_add_left ..) hfits) (hleading.subset hrun)⟩
  have hends := ends_write_journal hblob hregion haccepts hfits hcapacity hlong
  have hall := answer_write_journal_iff hblob hregion haccepts hfits hcapacity hlong hlast
  refine ⟨last, hlast, hleading, habove, hall, fun hok => ?_, fun hno => ?_,
    fun i hi => byte_lay_place hparts image hdata (fun run hrun => ?_) hi,
    fun x hx => byte_lay_of_no_place hparts data image hx, fun hsize => ?_, fun x hx => ?_⟩
  · obtain ⟨hwhole, hblob'⟩ := hends.value () hok
    have haccepted : accepted = runs := hfilter.trans hwhole
    rw [← show after = lay data image runs from congrArg (lay data image) haccepted] at hblob'
    exact ⟨haccepted ▸ hspan, hblob'⟩
  · cases hanswer : answer with
    | ok _ => exact absurd hanswer hno
    | error e =>
      obtain ⟨⟨first, hfirst, rfl⟩, hblob'⟩ := hends.failure e hanswer
      rw [← show after = lay data image (runs.takeWhile partition.admits) from
        congrArg (lay data image) hfilter] at hblob'
      exact ⟨⟨first, hfirst, rfl⟩, hblob'⟩
  · exact Nat.le_trans (Nat.le_add_left ..) (habove run hrun).1
  · exact size_lay fun run hrun => Nat.le_trans (habove run hrun).2 hsize
  · exact byte_lay_of_outside fun run hrun => .inl (Nat.lt_of_lt_of_le hx (habove run hrun).1)

/-- Two blocks of journal behind a database of one, in a blob of three: the first block is laid, the
second would lie on the database. -/
theorem journal_write_stops_at_database_second_block :
    let partition : Partition := ⟨1536, 512, 0⟩
    let sound := fun a : Attached =>
      a.device = some (.ram "m") ∧ (a.world.medium "m").Obliging 1536
    let vfs : Vfs := ⟨(Registry.empty.enter "a" ⟨"a", some (.ram "m"), partition, 1⟩).2, .initial⟩
    let write := write ⟨.journal, 0, 0⟩ 0 (Array.replicate 1024 2)
    write.answer vfs = .error (.refused (.noRoom .journal 512 512)) ∧
      ∃ after, (write.reached vfs).BlobIs 0 sound partition after ∧
        (∀ i < 512, after.byte (1024 + i) = 2) ∧ ∀ x < 1024, after.byte x = 0 := by
  intro partition sound vfs write
  have hgrowable : World.initial.medium "m" = .growable := medium_initial "m"
  have hblob : vfs.BlobIs 0 sound partition .empty := by
    refine ⟨_, rfl, rfl, ⟨rfl, ?_⟩, ?_⟩
    · show (World.initial.medium "m").Obliging 1536
      rw [hgrowable]
      exact RamDisk.Healthy.obliging ⟨rfl, rfl⟩ (by decide)
    · show (World.initial.medium "m").image = .empty
      rw [hgrowable]
      rfl
  have hruns : (partition.extents 0 1024).runs = [⟨1024, 512, 0⟩, ⟨512, 512, 512⟩] := by
    simp [partition, extents, extentsFrom, runLen, journalAddress, Word.add, Word.mul, Word.limit,
      blockSize, pure, Except.pure]
  have haccepted : [⟨1024, 512, 0⟩, ⟨512, 512, 512⟩].filter partition.admits =
      [⟨1024, 512, 0⟩] := by decide
  have hsize : (Array.replicate 1024 2 : Bytes).size = 1024 := Array.size_replicate
  obtain ⟨last, hlast, -, -, hok, -, hno, hbytes, -, -, hbelow⟩ :=
    @journal_write_stops_at_database vfs ⟨.journal, 0, 0⟩ sound partition .empty 0
      (Array.replicate 1024 2) hblob rfl ((Attached.accepts_ram "m" 1536).mono (Nat.zero_le _))
      (by decide) (by decide) (by rw [hsize]; decide) (by rw [hsize]; decide)
  rw [hsize, hruns] at hlast hno hbytes hbelow
  rw [haccepted] at hno hbytes hbelow
  obtain rfl := Option.some.inj hlast
  obtain ⟨⟨first, hfirst, hanswer⟩, hblob'⟩ := hno fun h => absurd (hok.mp h) (by decide)
  obtain rfl := Option.some.inj (hfirst.symm.trans (show _ = some ⟨512, 512, 512⟩ by decide))
  refine ⟨hanswer, _, hblob', fun i hi => ?_, fun x hx => ?_⟩
  · have hplace : place 1536 (0 + i) = 1024 + i := by
      unfold place blockSize
      omega
    have hbyte := hbytes i hi
    rw [hplace] at hbyte
    rw [hbyte]
    simp [Array.getD, show i < 1024 by omega]
  · exact (hbelow x hx).trans (Image.byte_empty x)

end Vfs

end TwinRegion
