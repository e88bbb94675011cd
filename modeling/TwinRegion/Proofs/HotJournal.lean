/-
TwinRegion.Proofs.HotJournal — a journal that a crash left behind.

The mark on a medium does not say how long its journal is, so an opening
that finds one takes the journal to fill the blob (`ends_mount_found`). Its
reserve is then the whole blob, whatever the journal really holds. As long
as it is neither cut nor erased, which `Turns.covered` follows request by
request, there is room for no database write at all, not even for one over
bytes that the database has (`run_write_covered`). None of this depends on
the device.
-/
import TwinRegion.Proofs.Crash
import TwinRegion.Proofs.Refusing
import TwinRegion.Proofs.Records

namespace TwinRegion

open StepM TwinRegion.Partition

/-! ## The reserve -/

namespace Partition

variable {partition : Partition} {offset len : Nat}

/-- A journal as long as the blob has the whole blob for its reserve. -/
theorem reserve_of_covered (h : partition.capacity ≤ partition.journalSize) :
    partition.reserve = partition.capacity := by
  unfold reserve blocksFor blockSize
  omega

theorem guardDatabaseWrite_of_covered (hcovered : partition.capacity ≤ partition.journalSize)
    (hjournal : partition.journalSize + blockSize < Word.limit)
    (hstop : offset + len + blockSize < Word.limit) :
    partition.guardDatabaseWrite offset len = refuse (.noRoom .database offset len) := by
  have hend : Word.add offset len = .ok (offset + len) := Word.add_eq_ok_iff.mpr ⟨by omega, rfl⟩
  have hkept : partition.journalReserve = .ok partition.capacity :=
    journalReserve_eq_ok_iff.mpr ⟨hjournal, (reserve_of_covered hcovered).symm⟩
  have hguarded : Word.add (offset + len) blockSize = .ok (offset + len + blockSize) :=
    Word.add_eq_ok_iff.mpr ⟨hstop, rfl⟩
  have hfull : partition.capacity - partition.capacity < offset + len + blockSize := by
    unfold blockSize
    omega
  rw [guardDatabaseWrite, hend, ok_bind, hkept, ok_bind, hguarded, ok_bind, if_pos (.inl hfull)]

end Partition

/-! ## Openings and writes -/

namespace Blob

variable {δ : Type} [Disk δ] {partition : Partition} {offset : Nat} {data : Bytes}

/-- Whatever the disk, the blob found on it has at least two blocks and is no longer than a whole
one, its database fits, and its journal is none or as long as the blob. -/
theorem ends_readPartition_found (name : String) (s : δ) :
    (readPartition name : StepM δ Partition).Ends s
      (fun partition _ => 2 * blockSize ≤ partition.capacity ∧
        partition.capacity ≤ standardCapacity ∧
        partition.databaseSize + blockSize ≤ partition.capacity ∧
        (partition.journalSize = 0 ∨ partition.journalSize = partition.capacity))
      (fun _ _ => True) := by
  refine .get_bind (.ite (fun _ => ?_) fun _ => ?_)
  · exact Ends.any.bind (fun _ _ h => h) fun _ _ _ => .pure ⟨by decide, Nat.le_refl _, by decide, .inl rfl⟩
  refine .check_bind (fun _ _ => trivial) fun capacity hcapacity => ?_
  obtain ⟨hlong, rfl⟩ := usable_eq_ok_iff.mp hcapacity
  refine Ends.any.bind (fun _ _ h => h) fun word _ _ => ?_
  refine .check_bind (fun _ _ => trivial) fun place _ => ?_
  refine Ends.any.bind (fun _ _ h => h) fun mark _ _ => ?_
  refine .check (fun partition hpartition => ?_) fun _ _ => trivial
  obtain ⟨-, hfits, rfl⟩ := ofWords_eq_ok_iff.mp hpartition
  refine ⟨Nat.le_min.mpr ⟨hlong, by decide⟩, Nat.min_le_right .., hfits, ?_⟩
  by_cases hmark : isMarked mark = true <;> simp [hmark]

/-- What holds of every partition that is read off the disk holds of a mounted one. -/
theorem ends_mount_of_read {onValue : Partition → δ → Prop} {name : String} {s : δ}
    (h : (readPartition name : StepM δ Partition).Ends s onValue (fun _ _ => True)) :
    (mount name : StepM δ Partition).Ends s onValue (fun _ _ => True) := by
  refine h.attempt.bind (fun _ _ h => h) fun result s h => ?_
  cases result with
  | ok partition => exact .pure h
  | error error => exact Ends.any.bind (fun _ _ h => h) fun _ _ _ => .refuse trivial

theorem ends_mount_found (name : String) (s : δ) :
    (mount name : StepM δ Partition).Ends s
      (fun partition _ => 2 * blockSize ≤ partition.capacity ∧
        partition.capacity ≤ standardCapacity ∧
        partition.databaseSize + blockSize ≤ partition.capacity ∧
        (partition.journalSize = 0 ∨ partition.journalSize = partition.capacity))
      (fun _ _ => True) :=
  ends_mount_of_read (ends_readPartition_found name s)

/-- A database write that its guard refuses does not come to the disk. -/
theorem run_write_unguarded {e : Failure} (s : δ) (hstop : offset + data.size < Word.limit)
    (hguard : partition.guardDatabaseWrite offset data.size = .error e) :
    (write partition .database offset data : StepM δ Partition).run s = .error e s := by
  have hend : Word.add offset data.size = .ok (offset + data.size) :=
    Word.add_eq_ok_iff.mpr ⟨hstop, rfl⟩
  rw [write, run_check_bind hend]
  simp [hguard]

/-- Past its guard a database write is not told of room any more, whatever the device. -/
theorem ends_write_guarded (a : Attached)
    (hguard : partition.guardDatabaseWrite offset data.size = .ok ()) :
    (write partition .database offset data : StepM Attached Partition).Ends a (fun _ _ => True)
      (fun e _ => RamDisk.Unroomy e) := by
  have hdetached : RamDisk.Unroomy (.refused .detached) := by
    intro _ _ _ h
    cases h
  have hwrite (place : Nat) (a : Attached) :
      (Disk.write place data : StepM Attached Unit).Ends a (fun _ _ => True)
        (fun e _ => RamDisk.Unroomy e) :=
    (Attached.ends_call
      (fun disk => (disk.ends_write place data).mono (fun _ _ _ => trivial) fun _ _ h => h.2)
      (fun disk => disk.ends_write place data RamDisk.unroomy_io fun _ => RamDisk.unroomy_add)
      hdetached).mono (fun _ _ h => h.2) fun _ _ h => h.2
  refine .check_bind (fun _ => RamDisk.unroomy_add) fun stop _ => ?_
  refine .check_ok_bind hguard ?_
  have hready : (Disk.ready : StepM Attached Unit).Ends a (fun _ _ => True)
      (fun e _ => RamDisk.Unroomy e) :=
    .get_bind (.ite (fun _ => .refuse hdetached) fun _ => .pure trivial)
  refine hready.bind (fun _ _ h => h) fun _ a _ => ?_
  refine .check_bind (fun _ => RamDisk.unroomy_add) fun place _ => ?_
  exact (hwrite place a).bind (fun _ _ h => h) fun _ a _ => .pure trivial

end Blob

/-! ## Requests -/

namespace Request

variable {request : Request} {partition next : Partition} {registry : Registry} {id : BlobId}

/-- A database below the ceiling stays there. -/
theorem Turns.modest (h : request.Turns partition next)
    (hmodest : partition.databaseSize ≤ databaseCeiling partition.capacity) :
    next.databaseSize ≤ databaseCeiling next.capacity := by
  rw [h.capacity_eq]
  exact h.databaseSize_le hmodest fun _ _ hwrite =>
    (guardDatabaseWrite_eq_ok_iff.mp hwrite).2.2.2.1

/-- The request neither cuts nor erases the journal of this record, and writes to it end
below 2^63. -/
def KeepsJournal (registry : Registry) (id : BlobId) (request : Request) : Prop :=
  request.target registry = some id →
    match request with
    | .write handle offset data => handle.region = .journal → offset + data.size < 1 <<< 63
    | .truncate handle _ => handle.region = .database
    | .remove _ => False
    | _ => True

/-- A journal that covers the blob does so until it is cut or erased. -/
theorem Turns.covered (h : request.Turns partition next) (hkeeps : request.KeepsJournal registry id)
    (htarget : request.target registry = some id)
    (hcovered : partition.capacity ≤ partition.journalSize)
    (hjournal : partition.journalSize < 1 <<< 63) :
    next.capacity ≤ next.journalSize ∧ next.journalSize < 1 <<< 63 := by
  have hkept := hkeeps htarget
  cases h with
  | kept | databaseGrown => exact ⟨hcovered, hjournal⟩
  | journalGrown hregion =>
    exact ⟨Nat.le_trans hcovered (Nat.le_max_left ..), Nat.max_lt.mpr ⟨hjournal, hkept hregion⟩⟩
  | @truncated handle size =>
    rw [show handle.region = .database from hkept]
    exact ⟨hcovered, hjournal⟩
  | erased => exact hkept.elim

end Request

/-! ## A medium with a mark -/

/-- A medium of a whole blob, with a database of `databaseSize` zero bytes, and with a mark. -/
def RamDisk.marked (databaseSize : Nat) (mark : Bytes) : RamDisk :=
  { growable with
    image := ((Image.zeros standardCapacity).write (standardCapacity - wordSize) mark).write 0
      (sizeWord databaseSize) }

theorem Blob.exists_mount_marked (name : String) {databaseSize : Nat} {mark : Bytes}
    (hsize : mark.size = wordSize) (hmark : isMarked mark = true)
    (hfits : databaseSize + blockSize ≤ standardCapacity) :
    ∃ disk, (mount name : StepM RamDisk Partition).run (.marked databaseSize mark) =
      .ok ⟨standardCapacity, databaseSize, standardCapacity⟩ disk := by
  have hwords : 2 * wordSize ≤ standardCapacity := by decide
  have hstandard : standardCapacity < 1 <<< 32 := by decide
  have hlen : (RamDisk.marked databaseSize mark).image.size = standardCapacity := by
    simp only [RamDisk.marked, Image.size_write, Image.size_zeros, Blob.size_sizeWord, hsize]
    omega
  have hword : sizeOfWord ((RamDisk.marked databaseSize mark).image.read 0 wordSize) = databaseSize :=
    Live.sizeOfWord_write (by omega)
  have hlast : (RamDisk.marked databaseSize mark).image.read (standardCapacity - wordSize) wordSize =
      mark := by
    have hread := (Image.zeros standardCapacity).read_write (standardCapacity - wordSize) mark
    rw [hsize] at hread
    refine (Image.read_congr fun x hx _ => ?_).trans hread
    rw [RamDisk.marked, Image.byte_write, Blob.size_sizeWord, if_neg (by omega)]
  have hfound : found (RamDisk.marked databaseSize mark).image =
      ⟨standardCapacity, databaseSize, standardCapacity⟩ := by
    simp only [found, hlen, Nat.min_self, hword, hlast, hmark, ↓reduceIte]
  have hmountable : Mountable (RamDisk.marked databaseSize mark).image := by
    refine ⟨by rw [hlen]; decide, ?_⟩
    rw [hfound]
    exact hfits
  have hrun := run_mount_within name (show (RamDisk.marked databaseSize mark).faults.reads = false
    from rfl) hmountable
  rw [hfound] at hrun
  exact ⟨_, hrun⟩

namespace Vfs

variable {vfs : Vfs} {id : BlobId} {record : BlobRecord}

/-! ## Opened blobs -/

/-- A database that was opened for the first time has the blob that was found. -/
theorem record_of_openVia {path : String} {openDevice : String → StepM World Device} {handle : Handle}
    {opened : Vfs} (hnew : vfs.registry.lookup? path = none)
    (hopen : (openVia path .database openDevice).run vfs = .ok handle opened) :
    ∃ record, opened.registry.record? handle.blob = some record ∧
      opened.registry.partition? path = some record.partition ∧
      record.partition.capacity ≤ standardCapacity ∧
      (record.partition.journalSize = 0 ∨
        record.partition.journalSize = record.partition.capacity) := by
  obtain ⟨_, _, partition, a, -, hmount, rfl, rfl⟩ := entered_of_openVia hnew hopen
  obtain ⟨-, hcapacity, -, hjournal⟩ :=
    (Blob.ends_mount_found path _).value partition (run_eq_ok_iff.mp hmount).1
  have hrecord := record?_enter vfs.registry path ⟨path, a.device, partition, 1⟩
    vfs.registry.records.size
  rw [if_pos rfl] at hrecord
  exact ⟨_, hrecord, partition?_enter .., hcapacity, hjournal⟩

/-- The blob of a marked medium opens. -/
theorem openVia_marked (path medium : String) {databaseSize : Nat} {mark : Bytes}
    (hsize : mark.size = wordSize) (hmark : isMarked mark = true)
    (hfits : databaseSize + blockSize ≤ standardCapacity) :
    ∃ handle opened disk, (openVia path .database fun _ => pure (.ram medium)).run
        ⟨.empty, World.initial.setMedium medium (.marked databaseSize mark)⟩ = .ok handle opened ∧
      Serves path handle.blob medium opened
        ⟨⟨standardCapacity, databaseSize, standardCapacity⟩, disk⟩ := by
  obtain ⟨disk, hmount⟩ := Blob.exists_mount_marked path hsize hmark hfits
  have hopen := @openVia_run path medium
    ⟨.empty, World.initial.setMedium medium (.marked databaseSize mark)⟩
    (by simp [Registry.lookup?, Registry.empty])
  rw [World.medium_setMedium, if_pos rfl, hmount] at hopen
  obtain ⟨handle, opened, hopen, hserves⟩ := hopen
  exact ⟨handle, opened, disk, hopen, hserves⟩

/-! ## Database writes -/

variable {user : Handle} {offset : Nat} {data : Bytes}

/-- Beside a journal that covers the blob every database write is refused, and changes nothing. -/
theorem run_write_covered (hrecord : vfs.registry.record? user.blob = some record)
    (hregion : user.region = .database)
    (hcovered : record.partition.capacity ≤ record.partition.journalSize)
    (hjournal : record.partition.journalSize + blockSize < Word.limit)
    (hstop : offset + data.size + blockSize < Word.limit) :
    (Vfs.write user offset data).run vfs =
      .error (.refused (.noRoom .database offset data.size)) vfs := by
  have hguard := guardDatabaseWrite_of_covered hcovered hjournal hstop
  have hstep := run_onBlob (fun partition => Blob.write partition user.region offset data) hrecord
  rw [run_focus, hregion, Blob.run_write_unguarded _ (by omega) hguard] at hstep
  rw [Vfs.write, EStateM.run_bind, hregion, hstep]
  simp only [setAttached_attached hrecord]

/-- A database write that passes its guard is not refused for want of room. -/
theorem write_guarded_ne_noRoom (hrecord : vfs.registry.record? user.blob = some record)
    (hregion : user.region = .database)
    (hguard : record.partition.guardDatabaseWrite offset data.size = .ok ())
    (region : Region) (place count : Nat) :
    (Vfs.write user offset data).answer vfs ≠ .error (.refused (.noRoom region place count)) := by
  have hblob : (onBlob user.blob fun partition =>
      Blob.write partition user.region offset data).Ends vfs (fun _ _ => True)
        (fun e _ => RamDisk.Unroomy e) := by
    rw [hregion]
    have hwrite := Blob.ends_write_guarded (attached record vfs) hguard
    refine Ends.of_run_eq ?_ (run_onBlob _ hrecord)
    exact (Ends.focus hwrite).mono (fun _ _ _ => trivial) fun _ _ ⟨_, _, h⟩ => h
  have hends : (Vfs.write user offset data).Ends vfs (fun _ _ => True)
      (fun e _ => RamDisk.Unroomy e) :=
    hblob.bind (fun _ _ h => h) fun _ _ _ => .modifies trivial
  exact fun hanswer => hends.failure _ hanswer region place count rfl

/-- After any requests to a blob that was opened with a journal and with a database below its
ceiling: a write over bytes that the database has passes its guard exactly if it ends in front
of the journal's blocks, and is then not refused for want of room. In front of the journal
that was found there is nothing: until it is cut or erased, every database write is refused
and changes nothing. -/
theorem write_back_beside_found_journal {vfs opened : Vfs} {path : String}
    {openDevice : String → StepM World Device} {handle : Handle} {partition : Partition}
    (hnew : vfs.registry.lookup? path = none)
    (hopen : (openVia path .database openDevice).run vfs = .ok handle opened)
    (hpartition : opened.registry.partition? path = some partition)
    (hjournal : 0 < partition.journalSize)
    (hmodest : partition.databaseSize ≤ databaseCeiling partition.capacity)
    (requests : List Request) :
    partition.journalSize = partition.capacity ∧
    ∃ record, (opened.run requests).registry.record? handle.blob = some record ∧
      (∀ user : Handle, user.blob = handle.blob → user.region = .database →
        ∀ (offset : Nat) (data : Bytes), offset + data.size ≤ record.partition.databaseSize →
        (record.partition.guardDatabaseWrite offset data.size = .ok () ↔
          record.partition.journalSize + blockSize < Word.limit ∧
          offset + data.size + blockSize ≤ record.partition.capacity - record.partition.reserve) ∧
        (record.partition.guardDatabaseWrite offset data.size = .ok () →
          ∀ region place count, (Vfs.write user offset data).answer (opened.run requests) ≠
            .error (.refused (.noRoom region place count)))) ∧
      ((∀ request ∈ requests, request.KeepsJournal opened.registry handle.blob) →
        ∀ user : Handle, user.blob = handle.blob → user.region = .database →
        ∀ (offset : Nat) (data : Bytes), offset + data.size + blockSize < Word.limit →
        (Vfs.write user offset data).run (opened.run requests) =
          .error (.refused (.noRoom .database offset data.size)) (opened.run requests)) := by
  obtain ⟨first, hfirst, hnamed, hcapacity, hfound⟩ := record_of_openVia hnew hopen
  obtain rfl : first.partition = partition := Option.some.inj (hnamed.symm.trans hpartition)
  have hfull : first.partition.journalSize = first.partition.capacity :=
    hfound.resolve_left (Nat.ne_of_gt hjournal)
  have hstandard : standardCapacity < 1 <<< 32 := by decide
  obtain ⟨last, hlast, hsmall, hbelow⟩ := @record_run opened handle.blob first
    (fun partition => partition.capacity ≤ standardCapacity ∧
      partition.databaseSize ≤ databaseCeiling partition.capacity) requests hfirst
    ⟨hcapacity, hmodest⟩ fun _ _ _ _ _ hturns h => ⟨hturns.capacity_eq ▸ h.1, hturns.modest h.2⟩
  refine ⟨hfull, last, hlast, ?_, ?_⟩
  · intro user hblob hregion offset data hin
    refine ⟨guardDatabaseWrite_within_iff (by omega) hbelow hin, fun hguard => ?_⟩
    exact write_guarded_ne_noRoom (hblob ▸ hlast) hregion hguard
  · intro hkeeps user hblob hregion offset data hstop
    obtain ⟨kept, hkept, hcovered, hbound⟩ := @record_run opened handle.blob first
      (fun partition => partition.capacity ≤ partition.journalSize ∧
        partition.journalSize < 1 <<< 63) requests hfirst ⟨Nat.le_of_eq hfull.symm, by omega⟩
      fun request hrequest htarget _ _ hturns h =>
        hturns.covered (hkeeps request hrequest) htarget h.1 h.2
    refine run_write_covered (hblob ▸ hkept) hregion hcovered ?_ hstop
    unfold blockSize Word.limit
    omega

theorem write_back_beside_found_journal_seven_bytes :
    ∃ (handle : Handle) (opened : Vfs),
      (openVia "a" .database fun _ => pure (.ram "m")).run
          ⟨.empty, World.initial.setMedium "m" (.marked 7 #[0xD9, 0xD5, 0x05, 0xF9])⟩ =
        .ok handle opened ∧
      let journal : Handle := ⟨.journal, handle.blob, 0⟩
      let later := opened.run [.write journal 0 #[1], .sync journal 0]
      (Vfs.write ⟨.database, handle.blob, 0⟩ 0 (.replicate 7 1)).run later =
        .error (.refused (.noRoom .database 0 7)) later := by
  obtain ⟨handle, opened, disk, hopen, hserves⟩ := @openVia_marked "a" "m" 7
    #[0xD9, 0xD5, 0x05, 0xF9] rfl (by simp [isMarked, Bytes.anyNonzero]) (by decide)
  refine ⟨handle, opened, hopen, ?_⟩
  intro journal later
  have hnew : (.empty : Registry).lookup? "a" = none := by simp [Registry.lookup?, Registry.empty]
  have hpartition : opened.registry.partition? "a" =
      some ⟨standardCapacity, 7, standardCapacity⟩ := hserves.partition?_eq
  obtain ⟨-, record, -, -, hrefused⟩ := write_back_beside_found_journal hnew hopen hpartition
    (by decide) (by decide) [.write journal 0 #[1], .sync journal 0]
  have hkeeps : ∀ request ∈ [Request.write journal 0 #[1], .sync journal 0],
      request.KeepsJournal opened.registry handle.blob :=
    List.forall_mem_cons.mpr ⟨fun _ _ => by decide, List.forall_mem_singleton.mpr fun _ => trivial⟩
  have hrun := hrefused hkeeps ⟨.database, handle.blob, 0⟩ rfl rfl 0 (.replicate 7 1)
    (by rw [Array.size_replicate]; decide)
  rw [Array.size_replicate] at hrun
  exact hrun

/-- A database of seven bytes is found with a journal, and they cannot be written over. -/
theorem found_journal_refuses_write_back :
    ∃ (handle : Handle) (opened : Vfs),
      (openVia "a" .database fun _ => pure (.ram "m")).run
          ⟨.empty, World.initial.setMedium "m" (.marked 7 #[0xD9, 0xD5, 0x05, 0xF9])⟩ =
        .ok handle opened ∧
      opened.registry.partition? "a" = some ⟨standardCapacity, 7, standardCapacity⟩ ∧
      7 ≤ databaseCeiling standardCapacity ∧
      opened.present "a-journal" = true ∧
      (Vfs.write ⟨.database, handle.blob, 0⟩ 0 (.replicate 7 1)).run opened =
        .error (.refused (.noRoom .database 0 7)) opened := by
  obtain ⟨handle, opened, disk, hopen, hserves⟩ := @openVia_marked "a" "m" 7
    #[0xD9, 0xD5, 0x05, 0xF9] rfl (by simp [isMarked, Bytes.anyNonzero]) (by decide)
  obtain ⟨record, hrecord, -, hpartition⟩ := hserves.record
  replace hpartition : record.partition = ⟨standardCapacity, 7, standardCapacity⟩ := hpartition
  refine ⟨handle, opened, hopen, hserves.partition?_eq, by decide, ?_, ?_⟩
  · rw [hserves.present_eq (by decide), decide_eq_true_eq]
    show 0 < standardCapacity
    decide
  · have hrun := @run_write_covered opened record ⟨.database, handle.blob, 0⟩ 0 (.replicate 7 1)
      hrecord rfl (Nat.le_of_eq (by rw [hpartition])) (by rw [hpartition]; decide)
      (by rw [Array.size_replicate]; decide)
    rw [Array.size_replicate] at hrun
    exact hrun

end Vfs

end TwinRegion
