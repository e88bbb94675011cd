/-
TwinRegion.Proofs.Mark — what is left of a journal after a crash.

Whether a journal is found again rests on the mark, the last word of the
blob, and no operation writes it for its own sake: it is the home of bytes
508 to 511 of the journal. So it holds whatever was last written there
(`mark_run`), even if the journal has been cut short since, and it holds
zeros if nothing else was. A journal is reported after a crash exactly if
those four bytes are not all zero (`journal_found_iff`), whatever the
length of the journal and however often it was synced.
-/
import TwinRegion.Proofs.Crash

namespace TwinRegion

open TwinRegion.Partition RamDisk

namespace Live

/-- The place of a blob's mark. -/
def markPlace (live : Live) : Nat := live.partition.capacity - wordSize

/-- The four bytes of the mark on the medium. -/
def markBytes (live : Live) : Bytes := live.disk.image.read live.markPlace wordSize

/-- The mark after the first `count` bytes of `data` were put at `offset` of a region in
which the mark is the word at `base`. -/
def stamp (base offset count : Nat) (data mark : Bytes) : Bytes :=
  Array.ofFn fun i : Fin wordSize =>
    if offset ≤ base + i ∧ base + i < offset + count then data.getD (base + i - offset) 0
    else mark.getD i 0

/-- The mark after an action, successful or not. Only a small blob's database reaches it. -/
def markAfter (live : Live) (action : Action) (ok : Bool) (mark : Bytes) : Bytes :=
  match action with
  | .write .database offset data =>
    if ok then stamp (live.markPlace - blockSize) offset data.size data mark else mark
  | .write .journal offset data =>
    stamp (blockSize - wordSize) offset
      (span (Blob.storedRuns live.partition offset data live.disk)) data mark
  | .eraseJournal => if ok then Bytes.zeros wordSize else mark
  | _ => mark

/-- The mark that a run leaves: what its writes last put there, or zeros since the last
erasure, or what the opening found. -/
def mark (start : Live) (actions : List Action) : Bytes :=
  track (fun live action => live.markAfter action (live.succeeds action)) start start.markBytes
    actions

theorem size_stamp (base offset count : Nat) (data mark : Bytes) :
    (stamp base offset count data mark).size = wordSize := by
  simp [stamp]

theorem read_eq_stamp {image : Image} {start base offset count : Nat} {data mark : Bytes}
    (h : ∀ i < wordSize, image.byte (start + i) =
      if offset ≤ base + i ∧ base + i < offset + count then data.getD (base + i - offset) 0
      else mark.getD i 0) : image.read start wordSize = stamp base offset count data mark := by
  apply Array.ext
  · rw [Image.size_read, size_stamp]
  · intro i h₁ h₂
    rw [Image.getElem_read, h i (by simpa using h₁)]
    simp [stamp]

theorem getD_markBytes {live : Live} {i : Nat} (h : i < wordSize) :
    live.markBytes.getD i 0 = live.disk.image.byte (live.markPlace + i) := by
  simp [markBytes, Array.getD, h]

/-- The mark is the home of the last word of the journal's first block. -/
theorem place_mark {live : Live} (hsound : live.Sound) {i : Nat} (h : i < wordSize) :
    Housed live.partition.capacity (blockSize - wordSize + i) ∧
      place live.partition.capacity (blockSize - wordSize + i) = live.markPlace + i := by
  have hlong := hsound.long
  unfold Housed place markPlace blockSize wordSize at *
  omega

/-- What the runs of a journal write leave of the mark. -/
theorem read_mark_lay {live : Live} (hsound : live.Sound) (offset : Nat) (data : Bytes) :
    (lay data live.disk.image (Blob.storedRuns live.partition offset data live.disk)).read
        live.markPlace wordSize =
      stamp (blockSize - wordSize) offset
        (span (Blob.storedRuns live.partition offset data live.disk)) data live.markBytes := by
  refine read_eq_stamp fun i hi => ?_
  obtain ⟨hhoused, hplace⟩ := place_mark hsound hi
  rw [← hplace, Blob.byte_storedRuns hsound.block_le _ _ _ hhoused, hplace, getD_markBytes hi]

/-- What a database write leaves of the mark, on a blob so small that it gets there. -/
theorem read_mark_write {live : Live} (hsound : live.Sound) (offset : Nat) (data : Bytes) :
    (live.disk.image.write (blockSize + offset) data).read live.markPlace wordSize =
      stamp (live.markPlace - blockSize) offset data.size data live.markBytes := by
  have hlong := hsound.long
  have hwords : 2 * wordSize ≤ blockSize := by decide
  have hbase : blockSize ≤ live.markPlace := by
    unfold markPlace
    omega
  refine read_eq_stamp fun i hi => ?_
  rw [Image.byte_write, getD_markBytes hi]
  by_cases hin : blockSize + offset ≤ live.markPlace + i ∧
      live.markPlace + i < blockSize + offset + data.size
  · have hindex : live.markPlace + i - (blockSize + offset) =
        live.markPlace - blockSize + i - offset := by omega
    rw [if_pos hin, if_pos (by omega), hindex]
  · rw [if_neg hin, if_neg (by omega)]

/-- A write that ends below the mark leaves it alone, whether the medium takes it or not. -/
theorem read_mark_written {live : Live} {address : Nat} {data : Bytes}
    (h : address + data.size ≤ live.markPlace) :
    (live.disk.written address data).read live.markPlace wordSize = live.markBytes :=
  Image.read_congr fun _ hx _ => byte_written_of_outside (.inr (Nat.le_trans h hx))

theorem Change.mark_eq {live next : Live} {action : Action} {ok : Bool} (hsound : live.Sound)
    (h : Change live action ok next) :
    next.markBytes = live.markAfter action ok live.markBytes := by
  have hlong := hsound.long
  have hwords : 2 * wordSize ≤ blockSize := by decide
  have hmark : next.markBytes = next.disk.image.read live.markPlace wordSize := by
    rw [markBytes, markPlace, h.capacity_eq, markPlace]
  have hword : 0 + (sizeWord live.partition.databaseSize).size ≤ live.markPlace := by
    rw [Blob.size_sizeWord]
    unfold markPlace
    omega
  rw [hmark]
  cases h with
  | read hdisk | databaseKept hdisk | journalSync hdisk =>
    rw [hdisk.image_eq]
    rfl
  | truncated | faulted => rfl
  | @databaseWritten offset data disk hguard hdisk =>
    rw [hdisk.image_eq]
    exact read_mark_write hsound offset data
  | @journalWritten offset data disk hall hstop hdisk =>
    rw [hdisk.image_eq]
    exact read_mark_lay hsound offset data
  | @journalCut offset data disk hdisk =>
    rw [hdisk.image_eq]
    exact read_mark_lay hsound offset data
  | databaseSynced _ hdisk | databaseUnsynced hdisk =>
    rw [hdisk.image_eq]
    exact read_mark_written hword
  | erased htakes hdisk =>
    have hread := (live.disk.image.write (live.partition.capacity - blockSize)
      (Bytes.zeros wordSize)).read_write live.markPlace (Bytes.zeros wordSize)
    rw [Bytes.size_zeros] at hread
    rw [hdisk.image_eq]
    exact hread
  | halfErased hdisk =>
    rw [hdisk.image_eq]
    refine read_mark_written ?_
    rw [Bytes.size_zeros]
    unfold markPlace
    omega

theorem isMarked_iff {mark : Bytes} (hsize : mark.size = wordSize) :
    isMarked mark = true ↔ ∃ i < wordSize, mark.getD i 0 ≠ 0 := by
  rw [isMarked, Bytes.anyNonzero, Array.any_eq_true]
  constructor
  · rintro ⟨i, hi, h⟩
    exact ⟨i, hsize ▸ hi, by simpa [Array.getD, hi] using h⟩
  · rintro ⟨i, hi, h⟩
    exact ⟨i, hsize ▸ hi, by simpa [Array.getD, hsize ▸ hi] using h⟩

/-- On a fresh blob the mark is the end of the journal's first block. -/
theorem getD_markBytes_withJournal (data : Bytes) {i : Nat} (hi : i < wordSize) :
    (withJournal data).markBytes.getD i 0 = data.getD (blockSize - wordSize + i) 0 := by
  have hwords : wordSize ≤ blockSize := by decide
  have hblock : blockSize ≤ standardCapacity := by decide
  have hhead : place standardCapacity 0 = standardCapacity - blockSize := by decide
  have hmark : (withJournal data).markPlace = standardCapacity - wordSize := rfl
  have hzero : ∀ x, RamDisk.materialised.image.byte x = 0 := by
    intro x
    rw [RamDisk.materialised, RamDisk.put, Image.byte_write]
    split
    · simp [Array.getD]
    · exact Image.byte_empty x
  have himage : (withJournal data).disk.image =
      RamDisk.materialised.image.write (place standardCapacity 0) data := rfl
  rw [getD_markBytes hi, himage, Image.byte_write, hzero, hhead, hmark]
  by_cases hin : blockSize - wordSize + i < data.size
  · have hindex : standardCapacity - wordSize + i - (standardCapacity - blockSize) =
        blockSize - wordSize + i := by omega
    rw [if_pos (by omega), hindex]
  · rw [if_neg (by omega), Array.getD, dif_neg hin]

theorem isMarked_withJournal (data : Bytes) :
    isMarked (withJournal data).markBytes = true ↔
      ∃ i < wordSize, data.getD (blockSize - wordSize + i) 0 ≠ 0 := by
  have hsize : (withJournal data).markBytes.size = wordSize := Image.size_read ..
  rw [isMarked_iff hsize]
  constructor
  · rintro ⟨i, hi, h⟩
    exact ⟨i, hi, getD_markBytes_withJournal data hi ▸ h⟩
  · rintro ⟨i, hi, h⟩
    exact ⟨i, hi, (getD_markBytes_withJournal data hi).symm ▸ h⟩

@[simp]
theorem journalSize_withJournal (data : Bytes) :
    (withJournal data).partition.journalSize = data.size := rfl

/-- Cutting a journal to nothing is its length and nothing else. -/
theorem run_cut_withJournal (data : Bytes) :
    (withJournal data).run [.truncate .journal 0] =
      ⟨.blank standardCapacity, (withJournal data).disk⟩ := by
  rw [run_cons, run_nil, after_of_run_ok (run_truncate _ _ _)]
  simp [Blob.truncate, withJournal, Partition.blank]

theorem mark_run {live : Live} (hsound : live.Sound) (actions : List Action) :
    (live.run actions).markBytes = live.mark actions :=
  track_invariant (fun live mark => live.markBytes = mark) (fun _ => True)
    (fun _ action _ hsound _ h => h ▸ (change_after hsound.block_le action).mark_eq hsound)
    hsound rfl fun _ _ => trivial

end Live

namespace Vfs

variable {path medium : String}

/-- After a crash a blob opens again on the bytes that are there, with the length saved last, and
with a journal as long as the blob if the mark is not zero. -/
theorem reopen {vfs : Vfs} {id : BlobId} {live : Live} (hserves : Serves path id medium vfs live)
    (hsound : live.Sound) {saved : Nat} (hholds : live.Holds saved) {faults : DiskFaults}
    (hreads : faults.reads = false) :
    ∃ handle reopened disk,
      (openVia path .database fun _ => pure (.ram medium)).run
          (vfs.crash.run [.setFaults medium faults]) = .ok handle reopened ∧
        Serves path handle.blob medium reopened
          ⟨⟨live.partition.capacity, saved,
            if isMarked live.markBytes then live.partition.capacity else 0⟩, disk⟩ ∧
        disk.image = live.disk.image ∧ disk.faults.reads = false := by
  have hcrashed : vfs.crash.run [.setFaults medium faults] =
      ⟨.empty, vfs.world.setMedium medium { vfs.world.medium medium with faults := faults }⟩ := by
    rw [run, List.foldl_cons, List.foldl_nil, Request.perform, StepM.reached]
    rfl
  have hmedium : (vfs.crash.run [.setFaults medium faults]).world.medium medium =
      { live.disk with faults := faults } := by
    rw [hcrashed, World.medium_setMedium, if_pos rfl, hserves.medium_eq]
  have hends := hholds.ends_mount hsound path hreads
  have hnew : (vfs.crash.run [.setFaults medium faults]).registry.lookup? path = none := by
    rw [hcrashed]
    simp [Registry.lookup?, Registry.empty]
  have hopen := @openVia_run path medium _ hnew
  rw [hmedium] at hopen
  obtain ⟨partition, hrun, rfl, hafter⟩ := hends.exists_value
  rw [hrun] at hopen
  obtain ⟨handle, reopened, hopen, hserves⟩ := hopen
  exact ⟨handle, reopened, _, hopen, hserves, hafter.image_eq, hafter.reads_eq.trans hreads⟩

/-- Whether a journal is found after requests and a crash rests on the mark alone. -/
theorem reopen_run {opened : Vfs} {id : BlobId} {start : Live}
    (hserves : Serves path id medium opened start) (hsound : start.Sound)
    (hholds : start.Holds start.partition.databaseSize) {requests : List Request}
    (habout : ∀ request ∈ requests, request.About path id medium) {faults : DiskFaults}
    (hreads : faults.reads = false) {journal : String}
    (hjournal : splitJournalName journal = (path, true)) :
    ∃ again reopened partition,
      (openVia path .database fun _ => pure (.ram medium)).run
          ((opened.run requests).crash.run [.setFaults medium faults]) = .ok again reopened ∧
      reopened.registry.partition? path = some partition ∧
      (0 < partition.journalSize ↔ isMarked (start.mark (requests.map Request.action)) = true) ∧
      (reopened.present journal = true ↔
        isMarked (start.mark (requests.map Request.action)) = true) := by
  have hlast := Live.sound_run hsound (requests.map Request.action)
  obtain ⟨again, reopened, disk, hagain, hreopened, -⟩ := reopen (serves_run hserves habout) hlast
    (Live.holds_run hsound hholds _) hreads
  rw [Live.mark_run hsound] at hreopened
  have hpositive : 0 < (start.run (requests.map Request.action)).partition.capacity :=
    Nat.lt_of_lt_of_le (by decide) hlast.block_le
  refine ⟨again, reopened, _, hagain, hreopened.partition?_eq, ?_, ?_⟩
  · split <;> simp_all
  · rw [hreopened.present_eq hjournal]
    split <;> simp_all

/-- After any requests to a blob that was opened, and a crash, the path opens again; a journal
is reported exactly if its bytes 508 to 511, as they were last written or found, are not all
zero. -/
theorem journal_found_iff {vfs opened : Vfs} {handle : Handle} {requests : List Request}
    {faults : DiskFaults} {journal : String} (hnew : vfs.registry.lookup? path = none)
    (hopen : (openVia path .database fun _ => pure (.ram medium)).run vfs = .ok handle opened)
    (habout : ∀ request ∈ requests, request.About path handle.blob medium)
    (hreads : faults.reads = false) (hjournal : splitJournalName journal = (path, true)) :
    ∃ start : Live,
      (Blob.mount path : StepM RamDisk Partition).run (vfs.world.medium medium) =
        .ok start.partition start.disk ∧
      ∃ again reopened partition,
        (openVia path .database fun _ => pure (.ram medium)).run
            ((opened.run requests).crash.run [.setFaults medium faults]) = .ok again reopened ∧
        reopened.registry.partition? path = some partition ∧
        (0 < partition.journalSize ↔ isMarked (start.mark (requests.map Request.action)) = true) ∧
        (reopened.present journal = true ↔
          isMarked (start.mark (requests.map Request.action)) = true) := by
  obtain ⟨start, hmount, hserves⟩ := serves_of_openVia hnew hopen
  exact ⟨start, hmount, reopen_run hserves (Live.sound_of_mount hmount)
    (Live.holds_of_mount hmount) habout hreads hjournal⟩

theorem journal_found_full_block : ∃ (handle : Handle) (opened : Vfs),
    (openVia "a" .database fun _ => pure (.ram "m")).run .initial = .ok handle opened ∧
      ∃ again reopened, (openVia "a" .database fun _ => pure (.ram "m")).run
          ((opened.run [.write ⟨.journal, handle.blob, 0⟩ 0 (.replicate 512 1)]).crash.run
            [.setFaults "m" .none]) = .ok again reopened ∧
        reopened.present "a-journal" = true := by
  obtain ⟨handle, opened, hopen, -⟩ := openVia_initial "a" "m"
  obtain ⟨start, hmount, again, reopened, partition, hagain, -, -, hpresent⟩ :=
    @journal_found_iff "a" "m" .initial opened handle
      [.write ⟨.journal, handle.blob, 0⟩ 0 (.replicate 512 1)] .none "a-journal" (lookup?_initial "a")
      hopen (List.forall_mem_singleton.mpr rfl) rfl (by decide)
  rw [medium_initial, Blob.run_mount_growable] at hmount
  obtain rfl : start = .fresh := by
    obtain ⟨hpartition, hdisk⟩ := EStateM.Result.ok.inj hmount
    cases start
    rw [Live.fresh, hpartition, hdisk]
  refine ⟨handle, opened, hopen, again, reopened, hagain, hpresent.mpr ?_⟩
  rw [← Live.mark_run Live.sound_fresh, List.map_singleton, Request.action, Live.run_cons,
    Live.run_nil, Live.after_of_run_ok (Live.run_write_fresh (by simp) (by simp [blockSize])),
    Live.isMarked_withJournal]
  exact ⟨0, by decide, by simp [blockSize, wordSize, Array.getD]⟩

/-- What a fresh blob shows of its journal before a sync, at the sync, and after a crash. -/
theorem sync_then_crash {opened : Vfs} {id : BlobId} (hserves : Serves path id medium opened .fresh)
    {requests : List Request} (habout : ∀ request ∈ requests, request.About path id medium)
    {live : Live} (hlive : Live.fresh.run (requests.map Request.action) = live)
    (hsaved : Live.fresh.saved (requests.map Request.action) = live.partition.databaseSize)
    (hhealthy : live.disk.Healthy) {journal : String}
    (hjournal : splitJournalName journal = (path, true)) :
    (regionSize ⟨.journal, id, 0⟩).answer (opened.run requests) = .ok live.partition.journalSize ∧
      (Request.perform (.sync ⟨.journal, id, 0⟩ 0)).answer (opened.run requests) = .ok #[] ∧
      ∃ again reopened,
        (openVia path .database fun _ => pure (.ram medium)).run
            (((opened.run requests).run [.sync ⟨.journal, id, 0⟩ 0]).crash.run
              [.setFaults medium .none]) = .ok again reopened ∧
        (reopened.present journal = true ↔ isMarked live.markBytes = true) := by
  have hserves := serves_run hserves habout
  have hsound := Live.sound_run Live.sound_fresh (requests.map Request.action)
  have hholds := Live.holds_run Live.sound_fresh
    (@Live.holds_of_mount path .growable .fresh (Blob.run_mount_growable path))
    (requests.map Request.action)
  rw [hlive] at hserves hsound hholds
  rw [hsaved] at hholds
  have habout : (Request.sync ⟨.journal, id, 0⟩ 0).About path id medium := rfl
  obtain ⟨disk, hsync, -⟩ := Live.run_sync_journal hhealthy 0
  obtain ⟨again, reopened, _, hagain, -, -, hpresent⟩ := reopen_run hserves hsound hholds
    (List.forall_mem_singleton.mpr habout) (show DiskFaults.none.reads = false from rfl) hjournal
  exact ⟨@Serves.answer_regionSize path medium _ live ⟨.journal, id, 0⟩ hserves,
    (alike_perform hserves _ habout).answer_eq.trans (StepM.run_eq_ok_iff.mp hsync).1, again,
    reopened, hagain, hpresent⟩

/-- A journal of sixteen bytes is written and synced, and after a crash it is not found; a
journal of a block is cut to nothing and synced, and after a crash it is found. -/
theorem journal_mark_is_data :
    ∃ (handle : Handle) (opened : Vfs),
      (openVia "a" .database fun _ => pure (.ram "m")).run .initial = .ok handle opened ∧
      let journal : Handle := ⟨.journal, handle.blob, 0⟩
      let short := opened.run [.write journal 0 (.replicate 16 1)]
      let emptied := opened.run [.write journal 0 (.replicate 512 1), .truncate journal 0]
      ((regionSize journal).answer short = .ok 16 ∧
        (Request.perform (.sync journal 0)).answer short = .ok #[] ∧
        ∃ again reopened, (openVia "a" .database fun _ => pure (.ram "m")).run
          ((short.run [.sync journal 0]).crash.run [.setFaults "m" .none]) = .ok again reopened ∧
          reopened.present "a-journal" = false) ∧
      ((regionSize journal).answer emptied = .ok 0 ∧
        (Request.perform (.sync journal 0)).answer emptied = .ok #[] ∧
        ∃ again reopened, (openVia "a" .database fun _ => pure (.ram "m")).run
          ((emptied.run [.sync journal 0]).crash.run [.setFaults "m" .none]) = .ok again reopened ∧
          reopened.present "a-journal" = true) := by
  obtain ⟨handle, opened, hopen, hserves⟩ := openVia_initial "a" "m"
  refine ⟨handle, opened, hopen, ?_⟩
  intro journal short emptied
  have hjournal : splitJournalName "a-journal" = ("a", true) := by decide
  have hwritten (count : Nat) (hpos : 0 < count) (hle : count ≤ blockSize) :
      Live.fresh.run [.write .journal 0 (.replicate count 1)] =
        Live.withJournal (.replicate count 1) := by
    rw [Live.run_cons, Live.run_nil,
      Live.after_of_run_ok (Live.run_write_fresh (by simpa using hpos) (by simpa using hle))]
  have hcut : Live.fresh.run [.write .journal 0 (.replicate 512 1), .truncate .journal 0] =
      ⟨.blank standardCapacity, (Live.withJournal (.replicate 512 1)).disk⟩ := by
    have happend := Live.run_append .fresh [.write .journal 0 (.replicate 512 1)]
      [.truncate .journal 0]
    rw [hwritten 512 (by decide) (by decide), Live.run_cut_withJournal] at happend
    exact happend
  obtain ⟨hsize16, hsync16, again16, reopened16, hagain16, hpresent16⟩ :=
    @sync_then_crash "a" "m" opened handle.blob hserves [.write journal 0 (.replicate 16 1)]
      (List.forall_mem_singleton.mpr rfl) _ (hwritten 16 (by decide) (by decide)) rfl
      (healthy_materialised.put _ _) _ hjournal
  obtain ⟨hsize0, hsync0, again0, reopened0, hagain0, hpresent0⟩ :=
    @sync_then_crash "a" "m" opened handle.blob hserves
      [.write journal 0 (.replicate 512 1), .truncate journal 0]
      (List.forall_mem_cons.mpr ⟨rfl, List.forall_mem_singleton.mpr rfl⟩) _ hcut rfl
      (healthy_materialised.put _ _) _ hjournal
  rw [Live.journalSize_withJournal, Array.size_replicate] at hsize16
  refine ⟨⟨hsize16, hsync16, again16, reopened16, hagain16, ?_⟩,
    ⟨hsize0, hsync0, again0, reopened0, hagain0, ?_⟩⟩
  · rw [← Bool.not_eq_true, hpresent16, Live.isMarked_withJournal]
    rintro ⟨i, -, h⟩
    exact h (by simp [Array.getD, blockSize, wordSize]; omega)
  · have hmark : (Live.mk (.blank standardCapacity)
        (Live.withJournal (.replicate 512 1)).disk).markBytes =
        (Live.withJournal (.replicate 512 1)).markBytes := rfl
    rw [hpresent0, hmark, Live.isMarked_withJournal]
    exact ⟨0, by decide, by simp [Array.getD, blockSize, wordSize]⟩

end Vfs

end TwinRegion
