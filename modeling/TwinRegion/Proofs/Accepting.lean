/-
TwinRegion.Proofs.Accepting — requests that are sure to be accepted.

A healthy medium grows and fails no call. On one, a write that fits into
memory goes through, a database write that passes its guard goes through,
and so does a journal write that stays in one block above the database. An
empty growable medium opens as a blank blob (`run_mount_growable`). With
these a run can be followed without its medium being computed.
-/
import TwinRegion.Proofs.Serving

namespace TwinRegion

open TwinRegion.Partition RamDisk StepM

namespace RamDisk

/-- The medium grows as it is written and fails no call. -/
structure Healthy (disk : RamDisk) : Prop where
  bound_eq : disk.bound = none
  faults_eq : disk.faults = .none

/-- The medium after a write that went through. -/
def put (disk : RamDisk) (offset : Nat) (data : Bytes) : RamDisk :=
  { disk with
    image := disk.image.write offset data
    calls := .write offset data.size :: disk.calls }

theorem Healthy.put {disk : RamDisk} (h : disk.Healthy) (offset : Nat) (data : Bytes) :
    (disk.put offset data).Healthy := ⟨h.bound_eq, h.faults_eq⟩

theorem Healthy.run_write {disk : RamDisk} (h : disk.Healthy) {offset : Nat} {data : Bytes}
    (hlen : offset + data.size ≤ maxLength) :
    (RamDisk.write offset data).run disk = .ok () (disk.put offset data) := by
  obtain ⟨hadd, hguard⟩ := add_of_le_maxLength hlen
  simp [RamDisk.write, record, spendWrite, h.faults_eq, h.bound_eq, DiskFaults.none, hadd, hguard,
    RamDisk.put]

theorem Healthy.run_sync {disk : RamDisk} (h : disk.Healthy) (level : SyncLevel) :
    (RamDisk.sync level).run disk =
      .ok () { disk with
        calls := .sync level :: disk.calls, synced := disk.synced + 1, lastLevel := some level } := by
  simp [RamDisk.sync, record, h.faults_eq, DiskFaults.none]

/-- The faults of a medium that takes `left` more writes. -/
def writesLeft (left : Nat) : DiskFaults := { DiskFaults.none with writesLeft := some left }

/-- The last write that a medium takes. -/
theorem run_write_last {disk : RamDisk} (hbound : disk.bound = none)
    (hfaults : disk.faults = writesLeft 1) {offset : Nat} {data : Bytes}
    (hlen : offset + data.size ≤ maxLength) :
    (RamDisk.write offset data).run disk =
      .ok () { disk.put offset data with faults := writesLeft 0 } := by
  obtain ⟨hadd, hguard⟩ := add_of_le_maxLength hlen
  simp [RamDisk.write, record, spendWrite, hfaults, hbound, writesLeft, DiskFaults.none, hadd, hguard,
    RamDisk.put]

theorem run_write_spent {disk : RamDisk} (hfaults : disk.faults = writesLeft 0) (offset : Nat)
    (data : Bytes) :
    (RamDisk.write offset data).run disk =
      .error (.refused (injected "nth write failure"))
        { disk with calls := .write offset data.size :: disk.calls } := by
  simp [RamDisk.write, record, spendWrite, hfaults, writesLeft, DiskFaults.none]

/-- A medium that was empty, made into a blob. -/
def materialised : RamDisk := growable.put (standardCapacity - 1) #[0]

theorem healthy_materialised : materialised.Healthy := ⟨rfl, rfl⟩

end RamDisk

namespace Blob

variable {partition : Partition} {disk : RamDisk} {offset : Nat} {data : Bytes}

theorem run_mount_growable (name : String) :
    (mount name : StepM RamDisk Partition).run .growable =
      .ok (.blank standardCapacity) .materialised := rfl

theorem run_write_database (h : disk.Healthy)
    (hguard : partition.guardDatabaseWrite offset data.size = .ok ())
    (hlen : blockSize + offset + data.size ≤ maxLength) :
    (write partition .database offset data).run disk =
      .ok { partition with databaseSize := max partition.databaseSize (offset + data.size) }
        (disk.put (blockSize + offset) data) := by
  have hlim : offset + data.size + blockSize < Word.limit :=
    (guardDatabaseWrite_eq_ok_iff.mp hguard).1
  have hstop : Word.add offset data.size = .ok (offset + data.size) :=
    Word.add_eq_ok_iff.mpr ⟨by omega, rfl⟩
  have hplace : databaseAddress offset = .ok (blockSize + offset) :=
    Word.add_eq_ok_iff.mpr ⟨by omega, rfl⟩
  refine (run_check_bind hstop).trans ((run_check_bind hguard).trans ?_)
  exact (run_check_bind hplace).trans (run_bind_of_ok (h.run_write hlen))

/-- A request inside one block has one extent. -/
theorem extents_in_block {len : Nat} (hpos : 0 < len) (hblock : len ≤ blockSize - offset % blockSize)
    (hcapacity : partition.capacity < 1 <<< 63) (hlim : offset + len < 1 <<< 63) :
    partition.extents offset len = ⟨[⟨place partition.capacity offset, len, 0⟩], none⟩ := by
  have hplace := journalAddress_of_lt (Nat.le_of_lt hcapacity) (show offset < 1 <<< 63 by omega)
  have hrun : runLen offset len = len := Nat.min_eq_left hblock
  have hnext : Word.add offset len = .ok (offset + len) := Word.add_of_lt_half hlim
  have hbuffer : Word.add 0 len = .ok (0 + len) := Word.add_of_lt_half (by omega)
  rw [extents, extentsFrom, if_neg (by omega)]
  simp [hrun, hplace, hnext, hbuffer, pure, Except.pure, extentsFrom_zero]

theorem run_write_in_block (h : disk.Healthy) (hpos : 0 < data.size)
    (hblock : data.size ≤ blockSize - offset % blockSize)
    (hcapacity : partition.capacity < 1 <<< 63 - 1) (hlim : offset + data.size < 1 <<< 63)
    (habove : partition.databaseSize + blockSize ≤ place partition.capacity offset) :
    (write partition .journal offset data).run disk =
      .ok { partition with journalSize := max partition.journalSize (offset + data.size) }
        (disk.put (place partition.capacity offset) data) := by
  have hend : place partition.capacity offset + data.size ≤ partition.capacity :=
    (housed_of_le_place (by omega)).place_add_le hblock
  have hstop : Word.add offset data.size = .ok (offset + data.size) := Word.add_of_lt_half hlim
  have hguard : partition.guardJournalRun (place partition.capacity offset) data.size = .ok () :=
    guardJournalRun_eq_ok_iff.mpr ⟨Word.lt_limit_of_lt_half (by omega), habove⟩
  have hslice : data.slice 0 data.size = .ok data := by
    have hadd : Word.add 0 data.size = .ok (0 + data.size) := Word.add_of_lt_half (by omega)
    simp [Bytes.slice, hadd, pure, Except.pure]
  have hwrite := @Healthy.run_write disk h (place partition.capacity offset) data
    (by unfold maxLength; omega)
  have hruns : (writeRuns partition data [⟨place partition.capacity offset, data.size, 0⟩] :
      StepM RamDisk Unit).run disk = .ok () (disk.put (place partition.capacity offset) data) := by
    rw [writeRuns]
    dsimp only
    rw [run_check_bind hguard, run_check_bind hslice]
    exact run_bind_of_ok hwrite
  have hready : (Disk.ready : StepM RamDisk Unit).run disk = .ok () disk := rfl
  have hfinish : finish ⟨[⟨place partition.capacity offset, data.size, 0⟩], none⟩ = .ok () := rfl
  rw [write, run_check_bind hstop]
  dsimp only
  rw [run_bind_of_ok hready, extents_in_block hpos hblock (by omega) hlim, run_bind_of_ok hruns,
    run_check_bind hfinish]
  rfl

/-- An erasure that breaks off after the first of its two writes. -/
theorem run_eraseJournal_cut (hbound : disk.bound = none) (hfaults : disk.faults = writesLeft 1)
    (hblock : blockSize ≤ partition.capacity) (hcapacity : partition.capacity ≤ maxLength) :
    ∃ after, (eraseJournal partition).run disk =
        .error (.refused (injected "nth write failure")) after ∧
      after.image = disk.image.write (partition.capacity - blockSize) (Bytes.zeros wordSize) ∧
      after.faults = writesLeft 0 := by
  have hword : wordSize ≤ blockSize := by decide
  have hready : (Disk.ready : StepM RamDisk Unit).run disk = .ok () disk := rfl
  have hhead : journalHead partition.capacity = .ok (partition.capacity - blockSize) :=
    Word.sub_eq_ok_iff.mpr ⟨hblock, rfl⟩
  have hmark : markOffset partition.capacity = .ok (partition.capacity - wordSize) :=
    Word.sub_eq_ok_iff.mpr ⟨by omega, rfl⟩
  let spent : RamDisk :=
    { disk.put (partition.capacity - blockSize) (Bytes.zeros wordSize) with faults := writesLeft 0 }
  have hfirst : (Disk.write (partition.capacity - blockSize) (Bytes.zeros wordSize) :
      StepM RamDisk Unit).run disk = .ok () spent :=
    run_write_last hbound hfaults (by rw [Bytes.size_zeros]; omega)
  let last : RamDisk :=
    { spent with
      calls := .write (partition.capacity - wordSize) (Bytes.zeros wordSize).size :: spent.calls }
  have hsecond : (Disk.write (partition.capacity - wordSize) (Bytes.zeros wordSize) :
      StepM RamDisk Unit).run spent = .error (.refused (injected "nth write failure")) last :=
    run_write_spent rfl _ _
  refine ⟨last, ?_, rfl, rfl⟩
  rw [eraseJournal, run_bind_of_ok hready, run_check_bind hhead, run_bind_of_ok hfirst,
    run_check_bind hmark, EStateM.run_bind, hsecond]

end Blob

/-! ## Actions -/

namespace Live

variable {live next : Live} {action : Action} {bytes : Bytes}

theorem after_of_run_ok (h : (perform action).run live = .ok bytes next) :
    live.after action = next := (run_eq_ok_iff.mp h).2

theorem succeeds_of_run_ok (h : (perform action).run live = .ok bytes next) :
    live.succeeds action = true := by
  rw [succeeds, (run_eq_ok_iff.mp h).1]
  rfl

/-- A step on the medium is run beside the partition. -/
theorem run_onDisk {α : Type} (step : Partition → StepM RamDisk α) {a : α} {disk : RamDisk}
    (h : (step live.partition).run live.disk = .ok a disk) :
    (onDisk step).run live = .ok a ⟨live.partition, disk⟩ := by
  simp only [onDisk, EStateM.run_bind, EStateM.run_get, run_focus, h]

theorem run_write {region : Region} {offset : Nat} {data : Bytes} {partition : Partition}
    {disk : RamDisk} (h : (Blob.write live.partition region offset data).run live.disk =
      .ok partition disk) :
    (perform (.write region offset data)).run live = .ok #[] ⟨partition, disk⟩ :=
  run_bind_of_ok (run_onDisk (fun partition => Blob.write partition region offset data) h)

theorem run_truncate (live : Live) (region : Region) (size : Nat) :
    (perform (.truncate region size)).run live =
      .ok #[] ⟨Blob.truncate live.partition region size, live.disk⟩ := rfl

/-- The faults of the medium change behind the blob's back. -/
theorem run_setFaults (live : Live) (faults : DiskFaults) :
    (perform (.setFaults faults)).run live =
      .ok #[] { live with disk := { live.disk with faults := faults } } := rfl

theorem run_sync_journal (h : live.disk.Healthy) (flags : Int32) :
    ∃ disk, (perform (.sync .journal flags)).run live = .ok #[] ⟨live.partition, disk⟩ ∧
      disk.Healthy ∧ disk.image = live.disk.image :=
  ⟨_, run_bind_of_ok (run_onDisk (fun partition => Blob.sync partition .journal flags) (h.run_sync _)),
    ⟨h.bound_eq, h.faults_eq⟩, rfl⟩

theorem run_sync_database (h : live.disk.Healthy) (flags : Int32) :
    ∃ disk, (perform (.sync .database flags)).run live = .ok #[] ⟨live.partition, disk⟩ ∧
      disk.Healthy ∧
      disk.image = live.disk.image.write 0 (sizeWord live.partition.databaseSize) := by
  have hlen : 0 + wordSize ≤ maxLength := by decide
  have hwrite : (Disk.write 0 (sizeWord live.partition.databaseSize) : StepM RamDisk Unit).run
      live.disk = .ok () _ := h.run_write hlen
  have hsync := (h.put 0 (sizeWord live.partition.databaseSize)).run_sync
    (.ofFlags (flags &&& ~~~SyncLevel.dataOnlyFlag))
  exact ⟨_, run_bind_of_ok (run_onDisk (fun partition => Blob.sync partition .database flags)
    ((run_bind_of_ok hwrite).trans hsync)), ⟨h.bound_eq, h.faults_eq⟩, rfl⟩

theorem run_eraseJournal_cut (hbound : live.disk.bound = none)
    (hfaults : live.disk.faults = writesLeft 1) (hblock : blockSize ≤ live.partition.capacity)
    (hcapacity : live.partition.capacity ≤ maxLength) :
    ∃ disk, (perform .eraseJournal).run live =
        .error (.refused (injected "nth write failure")) ⟨live.partition, disk⟩ ∧
      disk.image = live.disk.image.write (live.partition.capacity - blockSize)
        (Bytes.zeros wordSize) ∧
      disk.faults = writesLeft 0 := by
  obtain ⟨disk, hrun, himage, hdisk⟩ := Blob.run_eraseJournal_cut hbound hfaults hblock hcapacity
  refine ⟨disk, ?_, himage, hdisk⟩
  simp only [perform, onDisk, EStateM.run_bind, EStateM.run_get, run_focus, hrun]

/-- A blob that was just made of an empty medium. -/
def fresh : Live := ⟨.blank standardCapacity, .materialised⟩

theorem sound_fresh : fresh.Sound := sound_of_mount (Blob.run_mount_growable "")

/-- A fresh blob after a first journal write of at most one block. -/
def withJournal (data : Bytes) : Live :=
  ⟨{ Partition.blank standardCapacity with journalSize := data.size },
    RamDisk.materialised.put (place standardCapacity 0) data⟩

theorem run_write_fresh {data : Bytes} (hpos : 0 < data.size) (hle : data.size ≤ blockSize) :
    (perform (.write .journal 0 data)).run fresh = .ok #[] (withJournal data) := by
  have hblock : blockSize < 1 <<< 63 := by decide
  have hrun := @Blob.run_write_in_block (.blank standardCapacity) .materialised 0 data
    healthy_materialised hpos hle (by decide) (by omega) (by decide)
  have hsize : max (Partition.blank standardCapacity).journalSize (0 + data.size) = data.size := by
    simp [Partition.blank]
  rw [hsize] at hrun
  exact run_write hrun

end Live

namespace Vfs

theorem lookup?_initial (path : String) : Vfs.initial.registry.lookup? path = none := by
  simp [Vfs.initial, Registry.lookup?, Registry.empty]

theorem medium_initial (medium : String) : Vfs.initial.world.medium medium = .growable := by
  simp [Vfs.initial, World.initial, World.medium]

/-- A blob can be opened on a medium that was never there. -/
theorem openVia_initial (path medium : String) : ∃ handle opened,
    (openVia path .database fun _ => pure (.ram medium)).run .initial = .ok handle opened ∧
      Serves path handle.blob medium opened .fresh := by
  have hrun := @openVia_run path medium .initial (lookup?_initial path)
  rw [medium_initial, Blob.run_mount_growable] at hrun
  exact hrun

end Vfs

end TwinRegion
