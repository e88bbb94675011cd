/-
TwinRegion.Proofs.Serving — a file system that serves one blob.

Opening the database of a path that nobody has open mounts the blob on the
device and gives it a record (`openVia_new`); if the device is a medium in
memory, the record serves what was mounted there (`serves_of_openVia`).
From then on every request about that blob, through whatever handle, is
alike to one action on a live blob (`alike_perform`), so what holds after
every run of a live blob holds after every row of requests
(`serves_run`).
-/
import TwinRegion.Proofs.Device
import TwinRegion.Proofs.Live
import TwinRegion.Vfs

namespace TwinRegion

open StepM

/-- What the users of a file system ask of it, and what happens to the faults of a
medium in the meantime. -/
inductive Request where
  | read (handle : Handle) (offset len : Nat)
  | write (handle : Handle) (offset : Nat) (data : Bytes)
  | truncate (handle : Handle) (size : Nat)
  | sync (handle : Handle) (flags : Int32)
  | remove (path : String)
  | setFaults (medium : String) (faults : DiskFaults)

/-- A world that has a `World` in it. -/
class Around (W : Type) where
  change : (World → World) → W → W

instance : Around World := ⟨fun change world => change world⟩

@[simp] theorem Around.change_eq (f : World → World) (world : World) :
    Around.change f world = f world := rfl

namespace Request

variable {D W : Type} [Disk (Attached D W)]

/-- Serves a request. A read answers with the bytes read, everything else with none. -/
def perform [Around W] : Request → StepM (Vfs D W) Bytes
  | .read handle offset len => Vfs.read handle offset len
  | .write handle offset data => do
    Vfs.write handle offset data
    return #[]
  | .truncate handle size => do
    Vfs.truncate handle size
    return #[]
  | .sync handle flags => do
    Vfs.sync handle flags
    return #[]
  | .remove path => do
    Vfs.remove path
    return #[]
  | .setFaults medium faults => do
    modify fun vfs =>
      { vfs with
        world := Around.change
          (fun world => world.setMedium medium { world.medium medium with faults := faults })
          vfs.world }
    return #[]

/-- The request is about the blob of this path, record and medium. -/
def About (path : String) (id : BlobId) (medium : String) : Request → Prop
  | .read handle _ _ => handle.blob = id
  | .write handle _ _ => handle.blob = id
  | .truncate handle _ => handle.blob = id
  | .sync handle _ => handle.blob = id
  | .remove journal => splitJournalName journal = (path, true)
  | .setFaults other _ => other = medium

/-- What a request does to the blob that it is about. -/
def action : Request → Action
  | .read handle offset len => .read handle.region offset len
  | .write handle offset data => .write handle.region offset data
  | .truncate handle size => .truncate handle.region size
  | .sync handle flags => .sync handle.region flags
  | .remove _ => .eraseJournal
  | .setFaults _ faults => .setFaults faults

end Request

namespace Vfs

/-- The file system after requests served one after the other. -/
def run (vfs : Vfs) (requests : List Request) : Vfs :=
  requests.foldl (fun vfs request => request.perform.reached vfs) vfs

/-- A crash: every open blob is forgotten, and the media keep their bytes. -/
def crash (vfs : Vfs) : Vfs := ⟨.empty, vfs.world⟩

/-- The blob is open under its path, as this record on this medium. -/
structure Serves (path : String) (id : BlobId) (medium : String) (vfs : Vfs) (live : Live) : Prop where
  named : vfs.registry.lookup? path = some id
  record : ∃ record, vfs.registry.record? id = some record ∧ record.device = some (.ram medium) ∧
    record.partition = live.partition
  medium_eq : vfs.world.medium medium = live.disk

variable {D W : Type} {path medium : String} {id : BlobId} {vfs : Vfs} {live : Live}

theorem record?_modifyRecord (registry : Registry D) (id : BlobId)
    (f : BlobRecord D → BlobRecord D) :
    (registry.modifyRecord id f).record? id = (registry.record? id).map f := by
  simp [Registry.record?, Registry.modifyRecord, Array.getElem?_modify]

/-! ## Steps -/

/-- A step on a record that there is starts from its device and its partition. -/
theorem run_onBlob {α : Type} {vfs : Vfs D W} {record : BlobRecord D}
    (step : Partition → StepM (Attached D W) α)
    (hrecord : vfs.registry.record? id = some record) :
    (onBlob id step).run vfs =
      (StepM.focus (attached record) (setAttached id) (step record.partition)).run vfs := by
  simp only [onBlob, Vfs.record, EStateM.run_bind, EStateM.run_get, hrecord, EStateM.run_pure]

/-- A step on the device of the blob's record is alike to the step on its medium. -/
theorem alike_onBlob {α : Type} {far : Partition → StepM Attached α}
    {near : Partition → StepM RamDisk α}
    (h : ∀ partition a disk, a.On medium disk →
      Alike (Attached.On medium) (far partition) a (near partition) disk)
    (hserves : Serves path id medium vfs live) :
    Alike (Serves path id medium) (onBlob id far) vfs (Live.onDisk near) live := by
  obtain ⟨hnamed, ⟨record, hrecord, hdevice, hpartition⟩, hmedium⟩ := hserves
  have hstep := h live.partition (attached record vfs) live.disk ⟨hdevice, hmedium⟩
  have hfocus : Alike (Serves path id medium)
      (StepM.focus (attached record) (setAttached id) (far live.partition)) vfs
      (StepM.focus Live.disk (fun disk live => { live with disk := disk }) (near live.partition))
      live := by
    refine hstep.focus fun a disk ha => ⟨hnamed, ?_, ha.medium_eq⟩
    exact ⟨{ record with device := a.device },
      by rw [setAttached, record?_modifyRecord, hrecord, Option.map_some], ha.device_eq, hpartition⟩
  refine hfocus.of_run_eq ?_ rfl
  rw [run_onBlob far hrecord, hpartition]

theorem alike_setPartition (partition : Partition) (hserves : Serves path id medium vfs live) :
    Alike (Serves path id medium) (setPartition id partition) vfs (Live.setPartition partition)
      live := by
  obtain ⟨hnamed, ⟨record, hrecord, hdevice, -⟩, hmedium⟩ := hserves
  refine .ok rfl rfl ⟨hnamed, ?_, hmedium⟩
  exact ⟨{ record with partition := partition },
    by rw [record?_modifyRecord, hrecord, Option.map_some], hdevice, rfl⟩

theorem Serves.run_partition {handle : Handle} (hserves : Serves path handle.blob medium vfs live) :
    (Vfs.partition handle).run vfs = .ok live.partition vfs := by
  obtain ⟨-, ⟨record, hrecord, -, hpartition⟩, -⟩ := hserves
  simp only [Vfs.partition, Vfs.record, EStateM.run_bind, EStateM.run_get, hrecord, EStateM.run_pure,
    hpartition]

theorem Serves.answer_regionSize {handle : Handle}
    (hserves : Serves path handle.blob medium vfs live) :
    (regionSize handle).answer vfs = .ok (live.partition.regionSize handle.region) := by
  have hrun : (regionSize handle).run vfs = .ok (live.partition.regionSize handle.region) vfs := by
    simp only [regionSize, EStateM.run_bind, hserves.run_partition, EStateM.run_pure]
  exact (run_eq_ok_iff.mp hrun).1

/-- Removing the journal of an open blob erases it. -/
theorem run_remove [Disk (Attached D W)] {vfs : Vfs D W}
    (hnamed : vfs.registry.lookup? path = some id) {journal : String} (hjournal : splitJournalName journal = (path, true)) :
    (remove journal).run vfs = (eraseJournal id).run vfs := by
  simp only [remove, hjournal, EStateM.run_bind, EStateM.run_get, hnamed, if_true]

/-- A step on the device that answers with the partition from then on. -/
theorem alike_replacePartition {far : Partition → StepM Attached Partition}
    {near : Partition → StepM RamDisk Partition}
    (h : ∀ partition a disk, a.On medium disk →
      Alike (Attached.On medium) (far partition) a (near partition) disk)
    (hserves : Serves path id medium vfs live) :
    Alike (Serves path id medium)
      (do setPartition id (← onBlob id far); return #[] : StepM Vfs Bytes) vfs
      (do Live.setPartition (← Live.onDisk near); return #[] : StepM Live Bytes) live :=
  (alike_onBlob h hserves).bind fun partition _ _ hserves =>
    (alike_setPartition partition hserves).bind fun _ _ _ hserves => .pure hserves

/-- A request about a blob is alike to its action on the live blob. -/
theorem alike_perform (hserves : Serves path id medium vfs live) (request : Request)
    (habout : request.About path id medium) :
    Alike (Serves path id medium) request.perform vfs (Live.perform request.action) live := by
  cases request with
  | read handle offset len =>
    subst habout
    exact alike_onBlob
      (fun partition _ _ ha => Blob.alike_read (Attached.matches_on medium) partition _ offset len ha)
      hserves
  | write handle offset data =>
    subst habout
    have h := alike_replacePartition
      (fun partition _ _ ha =>
        Blob.alike_write (Attached.matches_on medium).writes partition handle.region offset data ha)
      hserves
    simpa only [Request.perform, Request.action, Live.perform, write, bind_assoc] using h
  | truncate handle size =>
    subst habout
    have h := (alike_setPartition (Blob.truncate live.partition handle.region size) hserves).bind
      fun _ _ _ hserves => Alike.pure (a := (#[] : Bytes)) hserves
    refine h.of_run_eq ?_ rfl
    simp only [Request.perform, truncate, bind_assoc, EStateM.run_bind, hserves.run_partition]
  | sync handle flags =>
    subst habout
    have h := (alike_onBlob (fun partition _ _ ha =>
      Blob.alike_sync (Attached.matches_on medium).writes partition handle.region flags ha)
      hserves).bind
        fun _ _ _ hserves => Alike.pure (a := (#[] : Bytes)) hserves
    exact h
  | remove journal =>
    have h : Alike (Serves path id medium) (do eraseJournal id; return #[] : StepM Vfs Bytes) vfs
        (Live.perform .eraseJournal) live := by
      have h := alike_replacePartition
        (fun partition _ _ ha =>
          Blob.alike_eraseJournal (Attached.matches_on medium).writes partition ha)
        hserves
      simpa only [Live.perform, eraseJournal, bind_assoc] using h
    refine h.of_run_eq ?_ rfl
    simp only [Request.perform, EStateM.run_bind, run_remove hserves.named habout]
  | setFaults other faults =>
    subst habout
    obtain ⟨hnamed, hrecord, hmedium⟩ := hserves
    refine .ok rfl rfl ⟨hnamed, hrecord, ?_⟩
    simp only [Around.change_eq, World.medium_setMedium, if_true, hmedium]

/-- A row of requests about a blob does what its actions do to the live blob. -/
theorem serves_run (hserves : Serves path id medium vfs live) {requests : List Request}
    (habout : ∀ request ∈ requests, request.About path id medium) :
    Serves path id medium (vfs.run requests) (live.run (requests.map Request.action)) := by
  induction requests generalizing vfs live with
  | nil => exact hserves
  | cons request rest ih =>
    have hstep := alike_perform hserves request (habout request List.mem_cons_self)
    exact ih hstep.reached_rel fun other hother => habout other (List.mem_cons_of_mem _ hother)

/-! ## Opening -/

section retain

variable {name : String} {region : Region} {vfs : Vfs D W} {create : String → StepM W (BlobRecord D)}

/-- A name that is open gets one more reference. -/
theorem run_retain_known (hname : vfs.registry.lookup? name = some id) :
    (retain name region create).run vfs = .ok id
      { vfs with
        registry := vfs.registry.modifyRecord id fun record => { record with refs := record.refs + 1 } } := by
  simp only [retain, EStateM.run_bind, EStateM.run_get, hname, EStateM.run_modify, EStateM.run_pure]

/-- A journal alone is refused, whatever `create` would do. -/
theorem run_retain_alone (hnew : vfs.registry.lookup? name = none) :
    (retain name .journal create).run vfs = .error (.refused (.journalAlone name)) vfs := by
  simp [retain, hnew]

/-- A name that was not open gets the record that `create` makes. -/
theorem run_retain_new (hnew : vfs.registry.lookup? name = none) :
    (retain name .database create).run vfs =
      match (create name).run vfs.world with
      | .ok record world => .ok vfs.registry.records.size
          ⟨(vfs.registry.enter name { record with refs := 1 }).2, world⟩
      | .error e world => .error e { vfs with world := world } := by
  simp only [retain, EStateM.run_bind, EStateM.run_get, hnew, onWorld, run_focus, reduceCtorEq,
    ↓reduceIte, EStateM.run_pure]
  cases (create name).run vfs.world <;> rfl

end retain

/-- A database that nobody has open gets a record if its device opens and a blob is mounted
there. -/
theorem openVia_new [Disk (Attached D W)] {vfs : Vfs D W} {openDevice : String → StepM W D}
    (hnew : vfs.registry.lookup? path = none) :
    (openVia path .database openDevice).run vfs =
      match (openDevice path).run vfs.world with
      | .error e world => .error e { vfs with world := world }
      | .ok device world =>
        match (Blob.mount path : StepM (Attached D W) Partition).run ⟨some device, world⟩ with
        | .error e a => .error e { vfs with world := a.world }
        | .ok partition a =>
          .ok ⟨.database, vfs.registry.records.size, 0⟩
            ⟨(vfs.registry.enter path ⟨path, a.device, partition, 1⟩).2, a.world⟩ := by
  simp only [openVia, blobName, EStateM.run_bind, run_retain_new hnew]
  cases hdevice : (openDevice path).run vfs.world with
  | error e world => rfl
  | ok device world =>
    simp only [openBlob, Attached.through, run_focus, EStateM.run_bind, EStateM.run_get, EStateM.run_pure]
    cases hmount : (Blob.mount path : StepM (Attached D W) Partition).run ⟨some device, world⟩ with
    | error e a => rfl
    | ok partition a => rfl

/-- A record that is entered under a path is served under it. -/
theorem serves_enter (registry : Registry) (world : World) {record : BlobRecord}
    (hdevice : record.device = some (.ram medium)) :
    Serves path (registry.enter path record).1 medium ⟨(registry.enter path record).2, world⟩
      ⟨record.partition, world.medium medium⟩ where
  named := Std.ExtTreeMap.getElem?_insert_self
  record := ⟨record, by simp [Registry.record?, Registry.enter, Registry.keep], hdevice, rfl⟩
  medium_eq := rfl

/-- Opening the database of a path that nobody has open mounts the blob on the medium. -/
theorem openVia_run (hnew : vfs.registry.lookup? path = none) :
    match (Blob.mount path : StepM RamDisk Partition).run (vfs.world.medium medium) with
    | .ok partition disk => ∃ handle opened,
        (openVia path .database fun _ => pure (.ram medium)).run vfs = .ok handle opened ∧
        Serves path handle.blob medium opened ⟨partition, disk⟩
    | .error e _ => ∃ after,
        (openVia path .database fun _ => pure (.ram medium)).run vfs = .error e after := by
  have hopen := @openVia_new _ _ path _ vfs (fun _ => pure (.ram medium)) hnew
  simp only [EStateM.run_pure] at hopen
  have hon : Attached.On medium ⟨some (.ram medium), vfs.world⟩ (vfs.world.medium medium) := ⟨rfl, rfl⟩
  cases Blob.alike_mount (Attached.matches_on medium) Attached.alike_close path hon with
  | @ok partition a disk hfar hnear h =>
    obtain ⟨hdevice, rfl⟩ := h
    rw [hfar] at hopen
    rw [hnear]
    exact ⟨_, _, hopen, @serves_enter path medium vfs.registry a.world
      ⟨path, a.device, partition, 1⟩ hdevice⟩
  | @error e a disk hfar hnear h =>
    rw [hfar] at hopen
    rw [hnear]
    exact ⟨_, hopen⟩

/-- A blob that was opened on a medium is mounted there and served. -/
theorem serves_of_openVia {handle : Handle} {opened : Vfs}
    (hnew : vfs.registry.lookup? path = none)
    (hopen : (openVia path .database fun _ => pure (.ram medium)).run vfs = .ok handle opened) :
    ∃ live : Live,
      (Blob.mount path : StepM RamDisk Partition).run (vfs.world.medium medium) =
        .ok live.partition live.disk ∧
      Serves path handle.blob medium opened live := by
  have hrun := @openVia_run path medium vfs hnew
  cases hmount : (Blob.mount path : StepM RamDisk Partition).run (vfs.world.medium medium) with
  | ok partition disk =>
    rw [hmount] at hrun
    obtain ⟨handle', opened', hopen', hserves⟩ := hrun
    obtain ⟨rfl, rfl⟩ := EStateM.Result.ok.inj (hopen.symm.trans hopen')
    exact ⟨⟨partition, disk⟩, rfl, hserves⟩
  | error e disk =>
    rw [hmount] at hrun
    obtain ⟨after, hfail⟩ := hrun
    cases hopen.symm.trans hfail

theorem Serves.partition?_eq (hserves : Serves path id medium vfs live) :
    vfs.registry.partition? path = some live.partition := by
  obtain ⟨hnamed, ⟨record, hrecord, -, hpartition⟩, -⟩ := hserves
  simp [Registry.partition?, hnamed, hrecord, hpartition]

/-- A journal is present while the live blob has one. -/
theorem Serves.present_eq (hserves : Serves path id medium vfs live) {journal : String}
    (hjournal : splitJournalName journal = (path, true)) :
    vfs.present journal = decide (0 < live.partition.journalSize) := by
  simp [present, hjournal, hserves.partition?_eq]

end Vfs

end TwinRegion
