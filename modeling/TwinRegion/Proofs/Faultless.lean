/-
TwinRegion.Proofs.Faultless — operations that cannot fault.

A fault is a sum, a product or an index that the arithmetic of the program
has no room for. The partition of an open blob is tame (`Partition.Tame`):
it is formed, and its journal is shorter than 2^63 bytes. Then no sum
in the operations on the blob comes near 2^64, whatever the device answers,
as long as a request's own end does not; what is left is a value or a
refusal.

A journal can only become that long on paper: a journal write with a byte in
it is accepted if its last run lies above the database, so it ends inside
the blob (`Tiles.end_le`), and only an empty write leaves the length at its
offset.
-/
import TwinRegion.Proofs.Discipline
import TwinRegion.Proofs.Everywhere
import TwinRegion.Proofs.Permutation

namespace TwinRegion

open StepM Vfs TwinRegion.Partition

/-! ## Partitions -/

/-- A formed partition with a journal shorter than 2^63 bytes. -/
structure Partition.Tame (partition : Partition) : Prop extends partition.Formed where
  journal_lt : partition.journalSize < 1 <<< 63

namespace Partition

variable {partition : Partition} {offset len : Nat} {e : Failure}

theorem Tame.truncate (h : partition.Tame) (region : Region) (size : Nat) :
    (Blob.truncate partition region size).Tame := by
  obtain ⟨⟨hlong, hstandard, hfits⟩, hjournal⟩ := h
  cases region with
  | database => exact ⟨⟨hlong, hstandard, by simp only [Blob.truncate]; omega⟩, hjournal⟩
  | journal => exact ⟨⟨hlong, hstandard, hfits⟩, by simp only [Blob.truncate]; omega⟩

theorem Tame.regionSize_lt (h : partition.Tame) (region : Region) :
    partition.regionSize region < 1 <<< 63 := by
  cases region with
  | database =>
    have hstandard : standardCapacity < 1 <<< 63 := by decide
    have hcapacity := h.standard
    have hfits := h.fits
    simp only [regionSize]
    omega
  | journal => exact h.journal_lt

/-- A request all of whose runs lie above the header ends inside the blob. -/
theorem Tiles.end_le {capacity logical start : Nat} {runs : List Extent}
    (h : Tiles capacity logical start runs) (hne : runs ≠ [])
    (habove : ∀ run ∈ runs, blockSize ≤ run.address) : logical + span runs ≤ capacity := by
  obtain ⟨last, hblock, -, run, hrun, haddress⟩ := h.exists_last hne
  have hhoused : Housed capacity last :=
    housed_of_le_place (haddress ▸ habove run (List.mem_of_getLast? hrun))
  unfold Housed blockSize at *
  omega

theorem isRefusal_of_guardRead {region : Region} (hlim : offset + len < Word.limit)
    (h : partition.guardRead region offset len = .error e) : e.IsRefusal := by
  rw [guardRead, Word.add_eq_ok_iff.mpr ⟨hlim, rfl⟩, ok_bind] at h
  split at h <;> cases h
  exact isRefusal_refused _

theorem isRefusal_of_guardDatabaseWrite (hlim : offset + len + blockSize < Word.limit)
    (hjournal : partition.journalSize + blockSize < Word.limit)
    (h : partition.guardDatabaseWrite offset len = .error e) : e.IsRefusal := by
  rw [guardDatabaseWrite, Word.add_eq_ok_iff.mpr ⟨by omega, rfl⟩, ok_bind,
    journalReserve_eq_ok_iff.mpr ⟨hjournal, rfl⟩, ok_bind,
    Word.add_eq_ok_iff.mpr ⟨hlim, rfl⟩, ok_bind] at h
  split at h <;> cases h
  exact isRefusal_refused _

theorem isRefusal_of_guardJournalRun {address : Nat}
    (hlim : partition.databaseSize + blockSize < Word.limit)
    (h : partition.guardJournalRun address len = .error e) : e.IsRefusal := by
  rw [guardJournalRun, Word.add_eq_ok_iff.mpr ⟨hlim, rfl⟩, ok_bind] at h
  split at h <;> cases h
  exact isRefusal_refused _

end Partition

/-! ## Devices -/

theorem RamDisk.ends_sync_refusing (disk : RamDisk) (level : SyncLevel) :
    (sync level).Ends disk (fun _ _ => True) (fun e _ => e.IsRefusal) := by
  refine .modify_bind (.get_bind ?_)
  exact .ite (fun _ => .refuse_bind (isRefusal_refused _)) fun _ => .set trivial

theorem RamDisk.ends_close_refusing (disk : RamDisk) :
    close.Ends disk (fun _ _ => True) (fun e _ => e.IsRefusal) := by
  refine .modify_bind (.get_bind ?_)
  exact .ite (fun _ => .refuse (isRefusal_refused _)) fun _ => .pure trivial

theorem FileDisk.ends_sync_refusing (disk : FileDisk) (level : SyncLevel) :
    (sync level).Ends disk (fun _ _ => True) (fun e _ => e.IsRefusal) := by
  refine .get_bind ?_
  split
  · exact .pure trivial
  · exact .refuse (isRefusal_refused _)
  · exact .refuse (isRefusal_refused _)

namespace Attached

variable {a : Attached}

theorem ends_ready_refusing :
    (Disk.ready : StepM Attached Unit).Ends a (fun _ _ => True) (fun e _ => e.IsRefusal) :=
  .get_bind (.ite (fun _ => .refuse (isRefusal_refused _)) fun _ => .pure trivial)

theorem ends_sync_refusing (level : SyncLevel) :
    (Disk.sync level : StepM Attached Unit).Ends a (fun _ _ => True) (fun e _ => e.IsRefusal) :=
  (ends_call (fun disk => disk.ends_sync_refusing level) (fun disk => disk.ends_sync_refusing level)
    (isRefusal_refused _)).mono (fun _ _ h => h.2) fun _ _ h => h.2

theorem ends_close_refusing :
    (Disk.close : StepM Attached Unit).Ends a (fun _ _ => True) (fun e _ => e.IsRefusal) :=
  (ends_call (fun disk => disk.ends_close_refusing) (fun _ => .pure trivial)
    (isRefusal_refused _)).mono (fun _ _ h => h.2) fun _ _ h => h.2

end Attached

/-! ## Operations -/

namespace Blob

variable {partition : Partition} {region : Region} {offset len : Nat} {data : Bytes} {a : Attached}
  {runs : List Extent}

theorem ends_readRuns_refusing (hlen : len < Word.limit)
    (hruns : ∀ run ∈ runs, run.address + run.len < Word.limit ∧ run.bufferStart + run.len ≤ len)
    (buffer : Bytes) :
    (readRuns len buffer runs : StepM Attached Bytes).Ends a (fun _ _ => True)
      (fun e _ => e.IsRefusal) := by
  induction runs generalizing buffer a with
  | nil => exact .pure trivial
  | cons run rest ih =>
    obtain ⟨haddress, hbuffer⟩ := hruns run List.mem_cons_self
    refine .check_ok_bind (Word.add_eq_ok_iff.mpr ⟨by omega, rfl⟩) ?_
    rw [if_neg (by omega)]
    refine .pure_bind ((Attached.ends_read_sized haddress).bind (fun _ _ h => h) fun bytes _ _ => ?_)
    exact ih (fun later hlater => hruns later (List.mem_cons_of_mem _ hlater)) (buffer ++ bytes)

theorem ends_read_refusing (h : partition.Tame) (hlim : offset + len + blockSize ≤ Word.limit) :
    (read partition region offset len : StepM Attached Bytes).Ends a (fun _ _ => True)
      (fun e _ => e.IsRefusal) := by
  have hshort : offset + len < Word.limit := by unfold blockSize at hlim; omega
  refine .check_bind (fun _ he => isRefusal_of_guardRead hshort he) fun _ hguard => ?_
  refine Attached.ends_ready_refusing.bind (fun _ _ h => h) fun _ a _ => ?_
  cases region with
  | database =>
    have hin : offset + len ≤ partition.databaseSize := (guardRead_eq_ok_iff.mp hguard).2
    have hfits := h.fits
    have hcapacity := h.capacity_lt
    refine .check_ok_bind (Word.add_eq_ok_iff.mpr ⟨by omega, rfl⟩) ?_
    exact (Attached.ends_read_sized (by omega)).mono (fun _ _ _ => trivial) fun _ _ h => h
  | journal =>
    obtain ⟨hstop, -, hruns⟩ := extents_whole h.block_le h.capacity_lt hlim
    have hcapacity := h.capacity_lt
    refine (ends_readRuns_refusing (by omega) (fun run hrun => ?_) #[]).bind (fun _ _ h => h)
      fun bytes a _ => ?_
    · obtain ⟨haddress, hbuffer⟩ := hruns run hrun
      exact ⟨by omega, hbuffer⟩
    · exact .check_ok_bind (by rw [finish, hstop]) (.pure trivial)

theorem ends_writeRuns_refusing (hlim : partition.databaseSize + blockSize < Word.limit)
    (hdata : data.size < Word.limit)
    (hruns : ∀ run ∈ runs, run.address + run.len ≤ RamDisk.maxLength ∧
      run.bufferStart + run.len ≤ data.size) :
    (writeRuns partition data runs : StepM Attached Unit).Ends a
      (fun _ _ => ∀ run ∈ runs, partition.databaseSize + blockSize ≤ run.address)
      (fun e _ => e.IsRefusal) := by
  induction runs generalizing a with
  | nil => exact .pure fun _ hrun => by cases hrun
  | cons run rest ih =>
    obtain ⟨haddress, hbuffer⟩ := hruns run List.mem_cons_self
    have hextract := size_extract_le data run.bufferStart run.len
    refine .check_bind (fun _ he => isRefusal_of_guardJournalRun hlim he) fun _ hguard => ?_
    refine .check_ok_bind (slice_eq_ok_iff.mpr ⟨by omega, hbuffer, rfl⟩) ?_
    refine (Attached.ends_write_refusing (by omega)).bind (fun _ _ h => h) fun _ a _ => ?_
    refine (ih fun later hlater => hruns later (List.mem_cons_of_mem _ hlater)).mono ?_
      fun _ _ h => h
    intro _ _ hrest later hlater
    rcases List.mem_cons.mp hlater with rfl | hlater
    · exact (guardJournalRun_eq_ok_iff.mp hguard).2
    · exact hrest later hlater

/-- A write that is accepted leaves a tame partition. -/
theorem ends_write_refusing (h : partition.Tame) (hoffset : offset < 1 <<< 63)
    (hdata : data.size < 1 <<< 31) :
    (write partition region offset data : StepM Attached Partition).Ends a
      (fun next _ => next.Tame) (fun e _ => e.IsRefusal) := by
  have hlim : offset + data.size + blockSize < Word.limit := by
    unfold Word.limit blockSize
    omega
  have hcapacity := h.capacity_lt
  have hfits := h.fits
  have hmemory : partition.capacity ≤ RamDisk.maxLength := Nat.le_trans h.standard (by decide)
  refine .check_ok_bind (Word.add_eq_ok_iff.mpr ⟨by omega, rfl⟩) ?_
  cases region with
  | database =>
    have hjournal : partition.journalSize + blockSize < Word.limit := by
      have hlt := h.journal_lt
      unfold Word.limit blockSize
      omega
    refine .check_bind (fun _ he => isRefusal_of_guardDatabaseWrite hlim hjournal he)
      fun _ hguard => ?_
    obtain ⟨-, -, hroom, -, -⟩ := guardDatabaseWrite_eq_ok_iff.mp hguard
    refine Attached.ends_ready_refusing.bind (fun _ _ h => h) fun _ a _ => ?_
    refine .check_ok_bind (Word.add_eq_ok_iff.mpr ⟨by omega, rfl⟩) ?_
    refine (Attached.ends_write_refusing (by omega)).bind (fun _ _ h => h) fun _ a _ => ?_
    exact .pure ⟨⟨h.long, h.standard, by dsimp only; omega⟩, h.journal_lt⟩
  | journal =>
    obtain ⟨hstop, hspan, hruns⟩ := extents_whole h.block_le hcapacity (Nat.le_of_lt hlim)
    refine Attached.ends_ready_refusing.bind (fun _ _ h => h) fun _ a _ => ?_
    refine (ends_writeRuns_refusing (by omega) (by omega) fun run hrun => ?_).bind (fun _ _ h => h)
      fun _ a habove => ?_
    · obtain ⟨haddress, hbuffer⟩ := hruns run hrun
      exact ⟨by omega, hbuffer⟩
    · refine .check_ok_bind (by rw [finish, hstop]) (.pure ⟨⟨h.long, h.standard, hfits⟩, ?_⟩)
      have hend : offset + data.size < 1 <<< 63 := by
        by_cases hempty : data.size = 0
        · rwa [hempty]
        · have hle := (tiles_extents partition offset data.size).end_le
            (fun hnil => hempty (hspan ▸ by rw [hnil, span_nil])) fun run hrun =>
              Nat.le_trans (Nat.le_add_left ..) (habove run hrun)
          rw [hspan] at hle
          unfold RamDisk.maxLength at hmemory
          omega
      exact Nat.max_lt.mpr ⟨h.journal_lt, hend⟩

theorem ends_sync_refusing (partition : Partition) (region : Region) (flags : Int32) :
    (sync partition region flags : StepM Attached Unit).Ends a (fun _ _ => True)
      (fun e _ => e.IsRefusal) := by
  have hword : 0 + (sizeWord partition.databaseSize).size ≤ RamDisk.maxLength := by
    rw [size_sizeWord]
    decide
  refine .ite (fun _ => ?_) fun _ => .pure_bind (Attached.ends_sync_refusing _)
  exact (Attached.ends_write_refusing hword).bind (fun _ _ h => h) fun _ _ _ =>
    Attached.ends_sync_refusing _

theorem ends_eraseJournal_refusing (h : partition.Tame) :
    (eraseJournal partition : StepM Attached Partition).Ends a (fun next _ => next.Tame)
      (fun e _ => e.IsRefusal) := by
  have hlong := h.long
  have hmemory : partition.capacity ≤ RamDisk.maxLength := Nat.le_trans h.standard (by decide)
  have hwords : (Bytes.zeros wordSize).size = wordSize ∧ wordSize ≤ blockSize := by decide
  refine Attached.ends_ready_refusing.bind (fun _ _ h => h) fun _ a _ => ?_
  refine .check_ok_bind (Word.sub_eq_ok_iff.mpr ⟨by omega, rfl⟩) ?_
  refine (Attached.ends_write_refusing (by omega)).bind (fun _ _ h => h) fun _ a _ => ?_
  refine .check_ok_bind (Word.sub_eq_ok_iff.mpr ⟨by omega, rfl⟩) ?_
  refine (Attached.ends_write_refusing (by omega)).bind (fun _ _ h => h) fun _ a _ => ?_
  exact .pure ⟨⟨h.long, h.standard, h.fits⟩, show 0 < 1 <<< 63 by decide⟩

/-- A device is opened or turned away. -/
theorem ends_mount_refusing (name : String) :
    (mount name : StepM Attached Partition).Ends a (fun partition _ => partition.Tame)
      (fun e _ => e.IsRefusal) := by
  have hends : (mount name : StepM Attached Partition).Ends a (fun _ _ => True)
      (fun e _ => e.IsRefusal) := by
    refine ((ends_readPartition_refusing name a).attempt_of_refused fun _ _ h => h).bind
      (fun _ _ h => h.elim) fun result a _ => ?_
    cases result with
    | ok partition => exact .pure trivial
    | error error =>
      have hclosed : (discard (StepM.attempt Disk.close) : StepM Attached PUnit).Ends a
          (fun _ _ => True) (fun _ _ => False) :=
        ((Attached.ends_close_refusing.attempt_of_refused fun _ _ h => h).mono
          (fun _ _ _ => trivial) fun _ _ h => h).discard
      exact hclosed.bind (fun _ _ h => h.elim) fun _ _ _ => .refuse (isRefusal_refused _)
  refine ⟨fun partition hanswer => ?_, hends.failure⟩
  obtain ⟨hlong, hstandard, hfits, hjournal⟩ := (ends_mount_found name a).value partition hanswer
  have hsmall : standardCapacity < 1 <<< 63 := by decide
  exact ⟨⟨hlong, hstandard, hfits⟩, by omega⟩

end Blob

/-! ## Records -/

/-- A registry that knows `known` records at least, all of them tame and with at most `calls`
references, and whose names lead to records. -/
structure Registry.Tame (known calls : Nat) (registry : Registry) : Prop where
  known_le : known ≤ registry.records.size
  leads : ∀ name id, registry.lookup? name = some id → id < registry.records.size
  all : registry.All fun record => record.partition.Tame ∧ record.refs ≤ calls

namespace Registry

variable {registry : Registry} {known calls : Nat}

theorem exists_record_of_lt {id : BlobId} (h : id < registry.records.size) :
    ∃ record, registry.record? id = some record := ⟨_, Array.getElem?_eq_getElem h⟩

theorem tame_empty : (.empty : Registry).Tame 0 0 where
  known_le := Nat.zero_le _
  leads _ _ h := by simp [Registry.empty, Registry.lookup?] at h
  all := all_empty

theorem Tame.later (h : registry.Tame known calls) : registry.Tame known (calls + 1) :=
  ⟨h.known_le, h.leads, h.all.mono fun _ hrecord => ⟨hrecord.1, Nat.le_succ_of_le hrecord.2⟩⟩

theorem Tame.modifyRecord (h : registry.Tame known calls) {id : BlobId}
    {f : BlobRecord → BlobRecord}
    (hf : ∀ record, registry.record? id = some record →
      (f record).partition.Tame ∧ (f record).refs ≤ calls) :
    (registry.modifyRecord id f).Tame known calls where
  known_le := by rw [size_modifyRecord]; exact h.known_le
  leads name other hname := by rw [size_modifyRecord]; exact h.leads name other hname
  all := h.all.modifyRecord hf

theorem Tame.unname (h : registry.Tame known calls) (name : String) :
    (registry.unname name).Tame known calls where
  known_le := h.known_le
  leads other id hother := by
    rw [lookup?_unname] at hother
    split at hother
    · cases hother
    · exact h.leads other id hother
  all := h.all.unname name

theorem Tame.enter (h : registry.Tame known calls) (name : String) {record : BlobRecord}
    (htame : record.partition.Tame) (hrefs : record.refs ≤ calls) :
    (registry.enter name record).2.Tame known calls ∧
      registry.records.size < (registry.enter name record).2.records.size := by
  have hsize : (registry.enter name record).2.records.size = registry.records.size + 1 := by
    simp [Registry.enter, Registry.keep]
  refine ⟨⟨?_, fun other id hother => ?_, h.all.enter name ⟨htame, hrefs⟩⟩, ?_⟩
  · rw [hsize]
    exact Nat.le_succ_of_le h.known_le
  · rw [lookup?_enter] at hother
    split at hother
    · cases hother
      rw [hsize]
      exact Nat.lt_succ_self _
    · rw [hsize]
      exact Nat.lt_succ_of_lt (h.leads other id hother)
  · rw [hsize]
    exact Nat.lt_succ_self _

end Registry

/-! ## Steps on the file system -/

namespace Vfs

variable {α β : Type} {vfs : Vfs} {known calls : Nat} {id : BlobId} {handle : Handle}

/-- The step ends with a value or a refusal, and either way with a tame registry. -/
def Calm (known calls : Nat) (onValue : α → Vfs → Prop) (step : StepM Vfs α) (vfs : Vfs) : Prop :=
  step.Ends vfs (fun a vfs' => vfs'.registry.Tame known calls ∧ onValue a vfs')
    (fun e vfs' => e.IsRefusal ∧ vfs'.registry.Tame known calls)

theorem Calm.bind {step : StepM Vfs α} {next : α → StepM Vfs β} {between : α → Vfs → Prop}
    {onValue : β → Vfs → Prop} (h : Calm known calls between step vfs)
    (hnext : ∀ a vfs', vfs'.registry.Tame known calls → between a vfs' →
      Calm known calls onValue (next a) vfs') : Calm known calls onValue (step >>= next) vfs :=
  Ends.bind h (fun _ _ h => h) fun a vfs' hbetween => hnext a vfs' hbetween.1 hbetween.2

theorem calm_record (h : vfs.registry.Tame known calls) (id : BlobId) :
    Calm known calls
      (fun record vfs' => record.partition.Tame ∧ vfs'.registry.record? id = some record)
      (record id) vfs := by
  refine .get_bind ?_
  cases hrecord : vfs.registry.record? id with
  | some record => exact .pure ⟨h, (h.all id record hrecord).1, hrecord⟩
  | none => exact .refuse ⟨isRefusal_refused _, h⟩

/-- A step on the device leaves the partitions and the references as they are. -/
theorem calm_onBlob (h : vfs.registry.Tame known calls) {step : Partition → StepM Attached α}
    {onValue : α → Prop}
    (hstep : ∀ partition a, partition.Tame →
      (step partition).Ends a (fun v _ => onValue v) (fun e _ => e.IsRefusal)) :
    Calm known calls (fun v _ => onValue v) (onBlob id step) vfs := by
  refine (calm_record h id).bind fun record vfs' h' hrecord => ?_
  have hkept : ∀ a : Attached, (setAttached id a vfs').registry.Tame known calls :=
    fun a => h'.modifyRecord fun r hr => h'.all id r hr
  refine (Ends.focus (hstep record.partition (attached record vfs') hrecord.1)).mono ?_ ?_
  · rintro v _ ⟨a, rfl, hv⟩
    exact ⟨hkept a, hv⟩
  · rintro e _ ⟨a, rfl, he⟩
    exact ⟨he, hkept a⟩

theorem calm_setPartition (h : vfs.registry.Tame known calls) {partition : Partition}
    (htame : partition.Tame) :
    Calm known calls (fun _ _ => True) (setPartition id partition) vfs :=
  .modifies ⟨h.modifyRecord fun r hr => ⟨htame, (h.all id r hr).2⟩, trivial⟩

theorem calm_read (h : vfs.registry.Tame known calls) {offset len : Nat}
    (hlim : offset + len + blockSize ≤ Word.limit) :
    Calm known calls (fun _ _ => True) (read handle offset len) vfs :=
  calm_onBlob h fun _ _ htame => Blob.ends_read_refusing htame hlim

theorem calm_write (h : vfs.registry.Tame known calls) {offset : Nat} {data : Bytes}
    (hoffset : offset < 1 <<< 63) (hdata : data.size < 1 <<< 31) :
    Calm known calls (fun _ _ => True) (write handle offset data) vfs :=
  (calm_onBlob h fun _ _ htame => Blob.ends_write_refusing htame hoffset hdata).bind
    fun _ _ h' htame => calm_setPartition h' htame

theorem calm_partition (h : vfs.registry.Tame known calls) :
    Calm known calls (fun partition _ => partition.Tame) (partition handle) vfs :=
  (calm_record h handle.blob).bind fun _ _ h' hrecord => .pure ⟨h', hrecord.1⟩

theorem calm_truncate (h : vfs.registry.Tame known calls) (size : Nat) :
    Calm known calls (fun _ _ => True) (truncate handle size) vfs :=
  (calm_partition h).bind fun _ _ h' htame => calm_setPartition h' (htame.truncate handle.region size)

theorem calm_sync (h : vfs.registry.Tame known calls) (flags : Int32) :
    Calm known calls (fun _ _ => True) (sync handle flags) vfs :=
  calm_onBlob h fun partition _ _ => Blob.ends_sync_refusing partition handle.region flags

theorem calm_remove (h : vfs.registry.Tame known calls) (path : String) :
    Calm known calls (fun _ _ => True) (remove path) vfs := by
  have hnothing : Calm known calls (fun _ _ => True) (pure () : StepM Vfs Unit) vfs :=
    .pure ⟨h, trivial⟩
  refine .ite (fun _ => .get_bind ?_) fun _ => hnothing
  split
  · exact (calm_onBlob h fun _ _ htame => Blob.ends_eraseJournal_refusing htame).bind
      fun _ _ h' htame => calm_setPartition h' htame
  · exact hnothing

/-- Giving a reference up takes one off, and none off a record that has none. -/
theorem calm_close (h : vfs.registry.Tame known calls) :
    Calm known calls (fun _ _ => True) (close handle) vfs := by
  refine (calm_record h handle.blob).bind fun record vfs h hrecord => .modify_bind ?_
  have hfewer : (vfs.registry.modifyRecord handle.blob fun r =>
      { r with
        refs := record.refs - 1
        device := if record.refs - 1 = 0 then none else record.device }).Tame known calls :=
    h.modifyRecord fun r hr =>
      ⟨(h.all _ r hr).1, Nat.le_trans (Nat.sub_le ..) (h.all _ record hrecord.2).2⟩
  refine .ite (fun _ => .modify_bind (.ite (fun _ => ?_) fun _ => .pure ⟨hfewer.unname _, trivial⟩))
    fun _ => .pure ⟨hfewer, trivial⟩
  refine (Ends.focus Attached.ends_close_refusing).mono ?_ ?_
  · rintro _ _ ⟨a, rfl, -⟩
    exact ⟨hfewer.unname _, trivial⟩
  · rintro e _ ⟨a, rfl, he⟩
    exact ⟨he, hfewer.unname _⟩

/-- An opening makes one more reference; the handle that it answers with leads to a record. It fails
in no way of its own but by refusals. -/
theorem ends_openVia (h : vfs.registry.Tame known calls) (path : String) (region : Region)
    {openDevice : String → StepM World Device} {failed : Failure → Prop}
    (hrefused : ∀ e : Failure, e.IsRefusal → failed e)
    (hopen : ∀ name world, (openDevice name).Ends world (fun _ _ => True) fun e _ => failed e) :
    (openVia path region openDevice).Ends vfs
      (fun handle vfs' => vfs'.registry.Tame known (calls + 1) ∧
        handle.blob < vfs'.registry.records.size)
      (fun e vfs' => failed e ∧ vfs'.registry.Tame known (calls + 1)) := by
  cases hname : vfs.registry.lookup? (blobName path region) with
  | some id =>
    refine .of_run_ok (openVia_known hname) ⟨h.later.modifyRecord fun r hr => ?_, ?_⟩
    · exact ⟨(h.all id r hr).1, Nat.succ_le_succ (h.all id r hr).2⟩
    · show id < (vfs.registry.modifyRecord id _).records.size
      rw [size_modifyRecord]
      exact h.leads _ id hname
  | none =>
    cases region with
    | journal => exact .of_run_error (openVia_alone hname) ⟨hrefused _ (isRefusal_refused _), h.later⟩
    | database =>
      have hnew := @openVia_new _ _ path _ vfs openDevice hname
      have hdevice := hopen path vfs.world
      cases hgiven : (openDevice path).run vfs.world with
      | error e world =>
        rw [hgiven] at hnew
        exact .of_run_error hnew ⟨hdevice.failure e (run_eq_error_iff.mp hgiven).1, h.later⟩
      | ok device world =>
        have hmount := Blob.ends_mount_refusing (a := ⟨some device, world⟩) path
        rw [hgiven] at hnew
        dsimp only at hnew
        cases hmounted : (Blob.mount path : StepM Attached Partition).run ⟨some device, world⟩ with
        | error e a =>
          rw [hmounted] at hnew
          exact .of_run_error hnew
            ⟨hrefused e (hmount.failure e (run_eq_error_iff.mp hmounted).1), h.later⟩
        | ok partition a =>
          rw [hmounted] at hnew
          have hentered := @Registry.Tame.enter _ _ _ h.later path ⟨path, a.device, partition, 1⟩
            (hmount.value partition (run_eq_ok_iff.mp hmounted).1) (Nat.succ_le_succ (Nat.zero_le _))
          exact .of_run_ok hnew hentered

theorem ends_openFile_refusing (path : String) (world : World) :
    (World.openFile path).Ends world (fun _ _ => True) fun e _ => e.IsRefusal := by
  have hhandle : (FileHandle.openAt path).Ends world.files (fun _ _ => True)
      fun e _ => e.IsRefusal := by
    refine .get_bind ?_
    split
    · exact .refuse (isRefusal_refused _)
    · exact .of_run_ok rfl trivial
  exact (Ends.focus hhandle).bind (fun _ _ ⟨_, _, he⟩ => he) fun _ _ _ => .pure trivial

end Vfs

end TwinRegion
