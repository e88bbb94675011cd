/-
TwinRegion.Proofs.Records — what becomes of the records.

The registry changes in three ways. A request is about one record at most;
of that record it changes the partition, as `Request.Turns` lists, and the
place that the device has come to by what the request does on it
(`Request.onDevice`), so what each request preserves of a partition holds
after a row of them (`record_run`). An opening takes a reference on the
record of its name (`openVia_known`) or enters a new one (`openVia_new`),
and one that fails enters none (`registry_of_openVia_error`). A closing
gives a reference up, and with the last one the name and the device
(`close_reached`).
-/
import TwinRegion.Proofs.Uniform
import TwinRegion.Proofs.Serving

namespace TwinRegion

open StepM TwinRegion.Partition

/-! ## Partitions -/

namespace Blob

variable {δ : Type} [Disk δ]

/-- What a database write makes of the partition, on any disk. -/
theorem ends_write_database_turns (partition : Partition) (offset : Nat) (data : Bytes) (s : δ) :
    (write partition .database offset data : StepM δ Partition).Ends s
      (fun next _ => partition.guardDatabaseWrite offset data.size = .ok () ∧
        next = { partition with databaseSize := max partition.databaseSize (offset + data.size) })
      (fun _ _ => True) := by
  refine .check_bind (fun _ _ => trivial) fun stop hstop => ?_
  obtain ⟨-, rfl⟩ := Word.add_eq_ok_iff.mp hstop
  refine .check_bind (fun _ _ => trivial) fun _ hguard => ?_
  refine Ends.any.bind (fun _ _ h => h) fun _ s _ => ?_
  refine .check_bind (fun _ _ => trivial) fun place _ => ?_
  exact Ends.any.bind (fun _ _ h => h) fun _ s _ => .pure ⟨hguard, rfl⟩

theorem ends_write_journal_turns (partition : Partition) (offset : Nat) (data : Bytes) (s : δ) :
    (write partition .journal offset data : StepM δ Partition).Ends s
      (fun next _ =>
        next = { partition with journalSize := max partition.journalSize (offset + data.size) })
      (fun _ _ => True) := by
  refine .check_bind (fun _ _ => trivial) fun stop hstop => ?_
  obtain ⟨-, rfl⟩ := Word.add_eq_ok_iff.mp hstop
  refine Ends.any.bind (fun _ _ h => h) fun _ s _ => ?_
  refine Ends.any.bind (fun _ _ h => h) fun _ s _ => ?_
  exact .check_bind (fun _ _ => trivial) fun _ _ => .pure rfl

theorem ends_eraseJournal_turns (partition : Partition) (s : δ) :
    (eraseJournal partition : StepM δ Partition).Ends s
      (fun next _ => next = { partition with journalSize := 0 }) (fun _ _ => True) := by
  refine Ends.any.bind (fun _ _ h => h) fun _ s _ => ?_
  refine .check_bind (fun _ _ => trivial) fun head _ => ?_
  refine Ends.any.bind (fun _ _ h => h) fun _ s _ => ?_
  refine .check_bind (fun _ _ => trivial) fun mark _ => ?_
  exact Ends.any.bind (fun _ _ h => h) fun _ s _ => .pure rfl

end Blob

/-- The blob has this capacity, and the database fits into it behind the header. -/
def Partition.Fits (capacity : Nat) (partition : Partition) : Prop :=
  partition.capacity = capacity ∧ partition.databaseSize + blockSize ≤ capacity

namespace Request

/-- What a request can make of the partition of the record that it is about. -/
inductive Turns : Request → Partition → Partition → Prop where
  | kept {request : Request} {partition : Partition} : Turns request partition partition
  | databaseGrown {handle : Handle} {offset : Nat} {data : Bytes} {partition : Partition}
      (hregion : handle.region = .database)
      (hguard : partition.guardDatabaseWrite offset data.size = .ok ()) :
      Turns (.write handle offset data) partition
        { partition with databaseSize := max partition.databaseSize (offset + data.size) }
  | journalGrown {handle : Handle} {offset : Nat} {data : Bytes} {partition : Partition}
      (hregion : handle.region = .journal) :
      Turns (.write handle offset data) partition
        { partition with journalSize := max partition.journalSize (offset + data.size) }
  | truncated {handle : Handle} {size : Nat} {partition : Partition} :
      Turns (.truncate handle size) partition (Blob.truncate partition handle.region size)
  | erased {path : String} {partition : Partition} :
      Turns (.remove path) partition { partition with journalSize := 0 }

theorem Turns.capacity_eq {request : Request} {partition next : Partition}
    (h : request.Turns partition next) : next.capacity = partition.capacity := by
  cases h with
  | truncated =>
    unfold Blob.truncate
    split <;> rfl
  | _ => rfl

/-- A bound that every admitted write of the database ends within stays one of its length. -/
theorem Turns.databaseSize_le {request : Request} {partition next : Partition} {bound : Nat}
    (h : request.Turns partition next) (hsize : partition.databaseSize ≤ bound)
    (hguard : ∀ offset len, partition.guardDatabaseWrite offset len = .ok () →
      offset + len ≤ bound) : next.databaseSize ≤ bound := by
  cases h with
  | databaseGrown _ hwrite => exact Nat.max_le.mpr ⟨hsize, hguard _ _ hwrite⟩
  | @truncated handle size =>
    unfold Blob.truncate
    split
    · exact Nat.le_trans (Nat.min_le_left ..) hsize
    · exact hsize
  | _ => exact hsize

theorem Turns.fits {request : Request} {partition next : Partition} {capacity : Nat}
    (h : request.Turns partition next) (hfits : partition.Fits capacity) : next.Fits capacity := by
  obtain ⟨rfl, hroom⟩ := hfits
  have hsize : next.databaseSize ≤ partition.capacity - blockSize := by
    refine h.databaseSize_le (by omega) fun offset len hwrite => ?_
    have hwrite := guardDatabaseWrite_eq_ok_iff.mp hwrite
    omega
  exact ⟨h.capacity_eq, by omega⟩

/-- What a request does on a device, given the partition. -/
def onDevice {δ : Type} [Disk δ] (partition : Partition) : Request → StepM δ Unit
  | .read handle offset len => discard (Blob.read partition handle.region offset len)
  | .write handle offset data => discard (Blob.write partition handle.region offset data)
  | .sync handle flags => Blob.sync partition handle.region flags
  | .remove _ => discard (Blob.eraseJournal partition)
  | .truncate .. | .setFaults .. => pure ()

theorem alike_onDevice {δ ε : Type} [Disk δ] [Disk ε] {R : δ → ε → Prop} (hR : Disk.Matches R)
    (request : Request) (partition : Partition) {s : δ} {t : ε} (h : R s t) :
    Alike R (request.onDevice partition) s (request.onDevice partition) t := by
  cases request with
  | read handle offset len => exact (Blob.alike_read hR partition handle.region offset len h).map
  | write handle offset data =>
    exact (Blob.alike_write hR.writes partition handle.region offset data h).map
  | sync handle flags => exact Blob.alike_sync hR.writes partition handle.region flags h
  | remove path => exact (Blob.alike_eraseJournal hR.writes partition h).map
  | truncate handle size => exact .pure h
  | setFaults medium faults => exact .pure h

/-- The record that a request is about, if there is one. -/
def target {D : Type} (registry : Registry D) : Request → Option BlobId
  | .read handle .. | .write handle .. | .truncate handle .. | .sync handle .. => some handle.blob
  | .remove path =>
    let (name, journal) := splitJournalName path
    if journal then registry.lookup? name else none
  | .setFaults .. => none

end Request

namespace Vfs

variable {D W : Type} {vfs : Vfs D W} {id : BlobId} {record : BlobRecord D}

/-! ## Requests -/

/-- The file system after a step on the device of a record left the device and the world
there, and the partition so. -/
def settle (id : BlobId) (partition : Partition) (a : Attached D W) (vfs : Vfs D W) : Vfs D W :=
  { registry := vfs.registry.modifyRecord id fun record =>
      { record with device := a.device, partition := partition }
    world := a.world }

theorem record?_modifyRecord_of_ne (registry : Registry D) {id other : BlobId} (h : id ≠ other)
    (f : BlobRecord D → BlobRecord D) :
    (registry.modifyRecord id f).record? other = registry.record? other := by
  simp [Registry.record?, Registry.modifyRecord, Array.getElem?_modify, h]

theorem size_modifyRecord (registry : Registry D) (id : BlobId) (f : BlobRecord D → BlobRecord D) :
    (registry.modifyRecord id f).records.size = registry.records.size := by
  simp [Registry.modifyRecord]

theorem record?_enter (registry : Registry D) (name : String) (record : BlobRecord D) (id : BlobId) :
    (registry.enter name record).2.record? id =
      if id = registry.records.size then some record else registry.record? id := by
  simp [Registry.record?, Registry.enter, Registry.keep, Array.getElem?_push]

theorem lookup?_enter (registry : Registry D) (name other : String) (record : BlobRecord D) :
    (registry.enter name record).2.lookup? other =
      if name = other then some registry.records.size else registry.lookup? other := by
  simp [Registry.lookup?, Registry.enter, Registry.keep, Std.ExtTreeMap.getElem?_insert]

theorem partition?_enter (registry : Registry D) (name : String) (record : BlobRecord D) :
    (registry.enter name record).2.partition? name = some record.partition := by
  simp only [Registry.partition?, lookup?_enter, if_true, Option.bind_eq_bind, Option.bind_some,
    record?_enter]
  rfl

theorem lookup?_unname (registry : Registry D) (name other : String) :
    (registry.unname name).lookup? other = if name = other then none else registry.lookup? other := by
  simp [Registry.lookup?, Registry.unname, Std.ExtTreeMap.getElem?_erase]

theorem modifyRecord_congr {registry : Registry D} {f g : BlobRecord D → BlobRecord D}
    (hrecord : registry.record? id = some record) (h : f record = g record) :
    registry.modifyRecord id f = registry.modifyRecord id g := by
  have hrecords : registry.records.modify id f = registry.records.modify id g := by
    apply Array.ext_getElem?
    intro other
    rw [Array.getElem?_modify, Array.getElem?_modify]
    split
    · subst other
      rw [show registry.records[id]? = some record from hrecord, Option.map_some, Option.map_some, h]
    · rfl
  rw [Registry.modifyRecord, Registry.modifyRecord, hrecords]

theorem modifyRecord_modifyRecord (registry : Registry D) (id : BlobId)
    (f g : BlobRecord D → BlobRecord D) :
    (registry.modifyRecord id f).modifyRecord id g =
      registry.modifyRecord id fun record => g (f record) := by
  have hrecords : (registry.records.modify id f).modify id g =
      registry.records.modify id fun record => g (f record) := by
    apply Array.ext_getElem?
    intro other
    simp only [Array.getElem?_modify]
    split
    · rw [Option.map_map]
      rfl
    · rfl
  simp only [Registry.modifyRecord, hrecords]

theorem modifyRecord_of_eq {registry : Registry D} {f : BlobRecord D → BlobRecord D}
    (hrecord : registry.record? id = some record) (h : f record = record) :
    registry.modifyRecord id f = registry := by
  have hrecords : registry.records.modify id f = registry.records := by
    apply Array.ext_getElem?
    intro other
    rw [Array.getElem?_modify]
    split
    · subst other
      rw [show registry.records[id]? = some record from hrecord, Option.map_some, h]
    · rfl
  rw [Registry.modifyRecord, hrecords]

theorem setAttached_attached (hrecord : vfs.registry.record? id = some record) :
    setAttached id (attached record vfs) vfs = vfs := by
  have hsame : vfs.registry.modifyRecord id (fun r => { r with device := record.device }) =
      vfs.registry := modifyRecord_of_eq hrecord rfl
  rw [setAttached, attached, hsame]

theorem setAttached_eq (hrecord : vfs.registry.record? id = some record) (a : Attached D W) :
    setAttached id a vfs = settle id record.partition a vfs := by
  have hregistry : vfs.registry.modifyRecord id (fun r => { r with device := a.device }) =
      vfs.registry.modifyRecord id
        fun r => { r with device := a.device, partition := record.partition } :=
    modifyRecord_congr hrecord rfl
  rw [setAttached, settle, hregistry]

theorem run_onBlob_absent {α : Type} (step : Partition → StepM (Attached D W) α)
    (hrecord : vfs.registry.record? id = none) :
    (onBlob id step).run vfs = .error (.refused .detached) vfs := by
  simp only [onBlob, Vfs.record, EStateM.run_bind, EStateM.run_get, hrecord, run_refuse]

/-- A step on the device that leaves the partition alone. -/
theorem reached_onBlob {α : Type} (step : Partition → StepM (Attached D W) α)
    (hrecord : vfs.registry.record? id = some record) :
    (onBlob id step).reached vfs =
      settle id record.partition ((step record.partition).reached (attached record vfs)) vfs := by
  rw [← setAttached_eq hrecord, reached_of_run_eq (run_onBlob step hrecord), reached_focus]

/-- A step on the device that answers with the partition from then on. -/
theorem reached_replacePartition (step : Partition → StepM (Attached D W) Partition)
    (hrecord : vfs.registry.record? id = some record) :
    ∃ partition,
      (partition = record.partition ∨
        (step record.partition).answer (attached record vfs) = .ok partition) ∧
      (do setPartition id (← onBlob id step); return #[] : StepM (Vfs D W) Bytes).reached vfs =
        settle id partition ((step record.partition).reached (attached record vfs)) vfs := by
  have hrun := run_onBlob step hrecord
  have hreached := reached_onBlob step hrecord
  rw [run_focus] at hrun
  rw [reached_bind]
  cases hstep : (step record.partition).run (attached record vfs) with
  | ok partition a =>
    rw [hstep] at hrun
    rw [(run_eq_ok_iff.mp hrun).1]
    refine ⟨partition, .inr (run_eq_ok_iff.mp hstep).1, ?_⟩
    have hset : (setPartition id partition >>= fun _ => pure #[] : StepM (Vfs D W) Bytes).run
        (settle id record.partition ((step record.partition).reached (attached record vfs)) vfs) =
          .ok #[] (settle id partition ((step record.partition).reached (attached record vfs)) vfs) := by
      rw [EStateM.run_bind, setPartition, EStateM.run_modify]
      simp only [settle, modifyRecord_modifyRecord]
      rfl
    rw [hreached]
    exact (run_eq_ok_iff.mp hset).2
  | error e a =>
    rw [hstep] at hrun
    rw [(run_eq_error_iff.mp hrun).1]
    exact ⟨record.partition, .inl rfl, hreached⟩

end Vfs

namespace Request

open Vfs

variable {D W : Type} [Disk (Attached D W)] [Around W] {vfs : Vfs D W} {id : BlobId}
  {record : BlobRecord D} {request : Request}

theorem turns_of_write {δ : Type} [Disk δ] {handle : Handle} {offset : Nat} {data : Bytes}
    {partition next : Partition} {s : δ}
    (h : (Blob.write partition handle.region offset data : StepM δ Partition).answer s = .ok next) :
    (Request.write handle offset data).Turns partition next := by
  cases hregion : handle.region with
  | database =>
    rw [hregion] at h
    obtain ⟨hguard, rfl⟩ := (Blob.ends_write_database_turns partition offset data s).value _ h
    exact .databaseGrown hregion hguard
  | journal =>
    rw [hregion] at h
    obtain rfl := (Blob.ends_write_journal_turns partition offset data s).value _ h
    exact .journalGrown hregion

/-- The name and the record of a journal that is removed. -/
theorem target_remove {registry : Registry D} {path : String}
    (h : (Request.remove path).target registry = some id) :
    splitJournalName path = ((splitJournalName path).1, true) ∧
      registry.lookup? (splitJournalName path).1 = some id := by
  simp only [target] at h
  split at h
  · rename_i hjournal
    exact ⟨Prod.ext rfl hjournal, h⟩
  · cases h

/-- A request about a record settles it: the device and the world are where the request's own
work on the device brings them. -/
theorem reached_of_target (htarget : request.target vfs.registry = some id)
    (hrecord : vfs.registry.record? id = some record) :
    ∃ partition, request.Turns record.partition partition ∧
      request.perform.reached vfs = settle id partition
        ((request.onDevice record.partition : StepM (Attached D W) Unit).reached (attached record vfs))
        vfs := by
  cases request with
  | read handle offset len =>
    cases htarget
    refine ⟨record.partition, .kept, ?_⟩
    rw [onDevice, reached_discard]
    exact reached_onBlob (fun partition => Blob.read partition handle.region offset len) hrecord
  | write handle offset data =>
    cases htarget
    obtain ⟨partition, hpartition, hreached⟩ := reached_replacePartition
      (fun partition => Blob.write partition handle.region offset data) hrecord
    refine ⟨partition, ?_, ?_⟩
    · rcases hpartition with rfl | hanswer
      · exact .kept
      · exact turns_of_write hanswer
    · rw [onDevice, reached_discard, ← hreached]
      simp only [perform, Vfs.write, bind_assoc]
  | truncate handle size =>
    cases htarget
    refine ⟨_, .truncated, ?_⟩
    have hrun : (Vfs.truncate handle size).run vfs = .ok ()
        { vfs with
          registry := vfs.registry.modifyRecord handle.blob fun r =>
            { r with partition := Blob.truncate record.partition handle.region size } } := by
      simp only [Vfs.truncate, Vfs.partition, Vfs.record, EStateM.run_bind, EStateM.run_get, hrecord,
        EStateM.run_pure, setPartition, EStateM.run_modify]
    rw [perform, reached_bind_pure, (run_eq_ok_iff.mp hrun).2, onDevice, reached_pure, settle,
      attached]
    congr 1
    exact modifyRecord_congr hrecord rfl
  | sync handle flags =>
    cases htarget
    refine ⟨record.partition, .kept, ?_⟩
    rw [perform, reached_bind_pure]
    exact reached_onBlob (fun partition => Blob.sync partition handle.region flags) hrecord
  | remove path =>
    obtain ⟨hjournal, hnamed⟩ := target_remove htarget
    obtain ⟨partition, hpartition, hreached⟩ := reached_replacePartition
      (fun partition => Blob.eraseJournal partition) hrecord
    refine ⟨partition, ?_, ?_⟩
    · rcases hpartition with rfl | hanswer
      · exact .kept
      · obtain rfl := (Blob.ends_eraseJournal_turns record.partition _).value _ hanswer
        exact .erased
    · rw [onDevice, reached_discard, ← hreached, perform, reached_bind_pure,
        reached_of_run_eq (run_remove hnamed hjournal), ← reached_bind_pure _ fun _ => (#[] : Bytes)]
      simp only [Vfs.eraseJournal, bind_assoc]
  | setFaults medium faults => cases htarget

/-- A request about a record that there is not changes nothing. -/
theorem reached_of_absent (htarget : request.target vfs.registry = some id)
    (hrecord : vfs.registry.record? id = none) : request.perform.reached vfs = vfs := by
  have hblob {α β : Type} (step : Partition → StepM (Attached D W) α) (next : α → StepM (Vfs D W) β) :
      (onBlob id step >>= next).reached vfs = vfs := by
    have hrun : (onBlob id step >>= next).run vfs = .error (.refused .detached) vfs := by
      rw [EStateM.run_bind, run_onBlob_absent step hrecord]
    exact (run_eq_error_iff.mp hrun).2
  cases request with
  | read handle offset len =>
    cases htarget
    exact (run_eq_error_iff.mp
      (run_onBlob_absent (fun partition => Blob.read partition handle.region offset len) hrecord)).2
  | write handle offset data =>
    cases htarget
    simp only [perform, Vfs.write, bind_assoc, hblob]
  | truncate handle size =>
    cases htarget
    have hrun : (Vfs.truncate handle size).run vfs = .error (.refused .detached) vfs := by
      simp only [Vfs.truncate, Vfs.partition, Vfs.record, EStateM.run_bind, EStateM.run_get, hrecord,
        run_refuse]
    rw [perform, reached_bind_pure, (run_eq_error_iff.mp hrun).2]
  | sync handle flags =>
    cases htarget
    simp only [perform, Vfs.sync, hblob]
  | remove path =>
    obtain ⟨hjournal, hnamed⟩ := target_remove htarget
    rw [perform, reached_bind_pure, reached_of_run_eq (run_remove hnamed hjournal), Vfs.eraseJournal,
      hblob]
  | setFaults medium faults => cases htarget

omit [Around W] in
/-- A path that leads to no record is not a journal's, or its journal is not open: nothing is
removed. -/
theorem run_remove_untargeted {path : String}
    (htarget : (Request.remove path).target vfs.registry = none) :
    (Vfs.remove path).run vfs = .ok () vfs := by
  simp only [target] at htarget
  simp only [Vfs.remove]
  split at htarget
  · rename_i hjournal
    simp [hjournal, htarget]
  · rename_i hjournal
    simp [hjournal]

/-- A request about no record leaves the registry alone. -/
theorem registry_of_untargeted (htarget : request.target vfs.registry = none) :
    (request.perform.reached vfs).registry = vfs.registry := by
  cases request with
  | remove path =>
    rw [perform, reached_bind_pure, (run_eq_ok_iff.mp (run_remove_untargeted htarget)).2]
  | setFaults medium faults => rw [perform, reached_bind_pure, reached_modify]
  | _ => cases htarget

/-- Requests leave the names alone. -/
theorem names_perform (request : Request) (vfs : Vfs D W) :
    (request.perform.reached vfs).registry.names = vfs.registry.names := by
  cases htarget : request.target vfs.registry with
  | none => rw [registry_of_untargeted htarget]
  | some id =>
    cases hrecord : vfs.registry.record? id with
    | none => rw [reached_of_absent htarget hrecord]
    | some record =>
      obtain ⟨partition, -, hreached⟩ := reached_of_target htarget hrecord
      rw [hreached]
      rfl

theorem target_congr {registry registry' : Registry D} (h : registry.names = registry'.names)
    (request : Request) : request.target registry = request.target registry' := by
  cases request <;> simp [target, Registry.lookup?, h]

end Request

namespace Vfs

variable {D W : Type} [Disk (Attached D W)] {vfs : Vfs D W} {path : String} {region : Region}
  {id : BlobId} {record : BlobRecord D} {openDevice : String → StepM W D}

/-! ## Rows of requests -/

/-- What the requests about a record preserve of its partition holds after all of them. -/
theorem record_run {vfs : Vfs} {id : BlobId} {record : BlobRecord} {P : Partition → Prop}
    {requests : List Request}
    (hrecord : vfs.registry.record? id = some record) (hstart : P record.partition)
    (hstep : ∀ request ∈ requests, request.target vfs.registry = some id → ∀ partition next,
      request.Turns partition next → P partition → P next) :
    ∃ last, (vfs.run requests).registry.record? id = some last ∧ P last.partition := by
  induction requests generalizing vfs record with
  | nil => exact ⟨record, hrecord, hstart⟩
  | cons request rest ih =>
    have hnames := request.names_perform vfs
    have hnext : ∃ next, (request.perform.reached vfs).registry.record? id = some next ∧
        P next.partition := by
      cases htarget : request.target vfs.registry with
      | none =>
        rw [Request.registry_of_untargeted htarget]
        exact ⟨record, hrecord, hstart⟩
      | some other =>
        by_cases hother : other = id
        · subst hother
          obtain ⟨partition, hturns, hreached⟩ := Request.reached_of_target htarget hrecord
          rw [hreached, settle, record?_modifyRecord, hrecord]
          exact ⟨_, rfl, hstep request List.mem_cons_self htarget _ _ hturns hstart⟩
        · cases hfound : vfs.registry.record? other with
          | none =>
            rw [Request.reached_of_absent htarget hfound]
            exact ⟨record, hrecord, hstart⟩
          | some found =>
            obtain ⟨partition, -, hreached⟩ := Request.reached_of_target htarget hfound
            rw [hreached, settle, record?_modifyRecord_of_ne _ hother]
            exact ⟨record, hrecord, hstart⟩
    obtain ⟨next, hnext, hP⟩ := hnext
    refine ih hnext hP fun later hlater htarget => ?_
    rw [Request.target_congr hnames] at htarget
    exact hstep later (List.mem_cons_of_mem _ hlater) htarget

/-! ## Openings -/

/-- A name that is open gets one more reference. -/
theorem openVia_known (hnamed : vfs.registry.lookup? (blobName path region) = some id) :
    (openVia path region openDevice).run vfs = .ok ⟨region, id, 0⟩
      { vfs with
        registry := vfs.registry.modifyRecord id fun record => { record with refs := record.refs + 1 } } := by
  simp only [openVia, EStateM.run_bind, run_retain_known hnamed, EStateM.run_pure]

/-- A journal alone is refused, whatever `openDevice` would do. -/
theorem openVia_alone (hnew : vfs.registry.lookup? (blobName path .journal) = none) :
    (openVia path .journal openDevice).run vfs =
      .error (.refused (.journalAlone (blobName path .journal))) vfs := by
  simp only [openVia, EStateM.run_bind, run_retain_alone hnew]

/-- A name that was not open gets a record if its device opens and a blob is mounted there. -/
theorem entered_of_openVia {handle : Handle} {opened : Vfs D W} (hnew : vfs.registry.lookup? path = none)
    (hopen : (openVia path .database openDevice).run vfs = .ok handle opened) :
    ∃ device world partition a, (openDevice path).run vfs.world = .ok device world ∧
      (Blob.mount path : StepM (Attached D W) Partition).run ⟨some device, world⟩ = .ok partition a ∧
      handle = ⟨.database, vfs.registry.records.size, 0⟩ ∧
      opened = ⟨(vfs.registry.enter path ⟨path, a.device, partition, 1⟩).2, a.world⟩ := by
  rw [openVia_new hnew] at hopen
  split at hopen
  · cases hopen
  · rename_i device world hdevice
    split at hopen
    · cases hopen
    · rename_i partition a hmount
      obtain ⟨rfl, rfl⟩ := EStateM.Result.ok.inj hopen
      exact ⟨device, world, partition, a, hdevice, hmount, rfl, rfl⟩

/-- An opening that fails leaves the registry as it was. -/
theorem registry_of_openVia_error {e : Failure} {vfs' : Vfs D W}
    (h : (openVia path region openDevice).run vfs = .error e vfs') :
    vfs'.registry = vfs.registry := by
  cases hname : vfs.registry.lookup? (blobName path region) with
  | some id => cases (openVia_known hname).symm.trans h
  | none =>
    cases region with
    | journal =>
      obtain ⟨-, rfl⟩ := EStateM.Result.error.inj ((openVia_alone hname).symm.trans h)
      rfl
    | database =>
      have hnew : vfs.registry.lookup? path = none := hname
      rw [openVia_new hnew] at h
      split at h
      · obtain ⟨-, rfl⟩ := EStateM.Result.error.inj h
        rfl
      · split at h
        · obtain ⟨-, rfl⟩ := EStateM.Result.error.inj h
          rfl
        · cases h

/-! ## Closings -/

/-- Of a record that there is not no reference can be given up. -/
theorem close_reached_absent {handle : Handle} (hrecord : vfs.registry.record? handle.blob = none) :
    (Vfs.close handle).reached vfs = vfs := by
  have hrun : (Vfs.close handle).run vfs = .error (.refused .detached) vfs := by
    simp only [Vfs.close, relinquish, Vfs.record, EStateM.run_bind, EStateM.run_get, hrecord,
      run_refuse]
  exact (run_eq_error_iff.mp hrun).2

/-- A reference that is not the last one is given up. -/
theorem run_close_left {handle : Handle} (hrecord : vfs.registry.record? handle.blob = some record)
    (hmore : record.refs - 1 ≠ 0) :
    (Vfs.close handle).run vfs = .ok ()
      { vfs with
        registry := vfs.registry.modifyRecord handle.blob fun r =>
          { r with refs := record.refs - 1 } } := by
  have hregistry : vfs.registry.modifyRecord handle.blob (fun r =>
      { r with refs := record.refs - 1, device := record.device }) =
      vfs.registry.modifyRecord handle.blob fun r => { r with refs := record.refs - 1 } :=
    modifyRecord_congr hrecord rfl
  simp only [Vfs.close, relinquish, Vfs.record, EStateM.run_bind, EStateM.run_get, hrecord,
    EStateM.run_pure, EStateM.run_modify, if_neg hmore, hregistry]

/-- With the last reference go the name and the device, which is closed then. -/
theorem run_close_last {handle : Handle} (hrecord : vfs.registry.record? handle.blob = some record)
    (hlast : record.refs - 1 = 0) :
    (Vfs.close handle).run vfs =
      (if record.device.isSome then
        StepM.focus (attached record) (fun a vfs => { vfs with world := a.world }) Disk.close
      else pure () : StepM (Vfs D W) Unit).run
        { vfs with
          registry := (vfs.registry.modifyRecord handle.blob fun r =>
            { r with refs := 0, device := none }).unname record.name } := by
  cases hdevice : record.device <;>
    simp [Vfs.close, relinquish, Vfs.record, hrecord, hlast, hdevice]

/-- Giving a reference up; with the last one go the name and the device, whatever the device
says to being closed. -/
theorem close_reached [Attached.Lasting D W] {handle : Handle}
    (hrecord : vfs.registry.record? handle.blob = some record) :
    (Vfs.close handle).reached vfs =
      if record.refs - 1 = 0 then
        { registry := (vfs.registry.modifyRecord handle.blob fun r =>
            { r with refs := 0, device := none }).unname record.name
          world := ((Disk.close : StepM (Attached D W) Unit).reached (attached record vfs)).world }
      else
        { vfs with
          registry := vfs.registry.modifyRecord handle.blob fun r =>
            { r with refs := record.refs - 1 } } := by
  by_cases hlast : record.refs - 1 = 0
  · rw [if_pos hlast, reached_of_run_eq (run_close_last hrecord hlast)]
    cases hdevice : record.device with
    | none =>
      have hclose := Attached.Lasting.close (attached record vfs) hdevice
      rw [hclose, if_neg (by simp), reached_pure, attached]
    | some device =>
      rw [if_pos Option.isSome_some, reached_focus]
      rfl
  · rw [if_neg hlast, (run_eq_ok_iff.mp (run_close_left hrecord hlast)).2]

end Vfs

end TwinRegion
