/-
TwinRegion.Proofs.Served — runs of a live blob, seen by the users of a file system.

What is proved of the runs of a live blob is proved of what the users of a
file system see. While a blob is open on a medium in memory, the live blob
at its path (`Vfs.live`) goes through the actions of the requests about it
(`Served.live_run`), and its reads are those of the path
(`Serves.answer_read_eq`). So the database opens again after a crash with
the length saved last, and never runs out of room for what it has; the
journal stays clear of it, opens again when it is marked, and spares it
when it is written or removed.
-/
import TwinRegion.Proofs.Overlap
import TwinRegion.Proofs.Persisted
import TwinRegion.Proofs.Recovery
import TwinRegion.Proofs.Retrying

namespace TwinRegion

open StepM TwinRegion.Partition

/-! ## One blob -/

namespace Live

theorem answer_onDisk {α : Type} (step : Partition → StepM RamDisk α) (live : Live) :
    (onDisk step).answer live = (step live.partition).answer live.disk := by
  unfold answer
  simp only [onDisk, EStateM.run_bind, EStateM.run_get, run_focus]
  cases (step live.partition).run live.disk <;> rfl

/-- A step that answers with the partition from then on fails as it does on the medium. -/
theorem answer_setPartition (step : Partition → StepM RamDisk Partition) (live : Live) :
    (do setPartition (← onDisk step); return #[] : StepM Live Bytes).answer live =
      ((step live.partition).answer live.disk).map fun _ => #[] := by
  rw [answer_bind, answer_onDisk]
  cases (step live.partition).answer live.disk with
  | ok partition =>
    have hset : (do setPartition partition; return #[] : StepM Live Bytes).run
        ((onDisk step).reached live) =
          .ok #[] { (onDisk step).reached live with partition := partition } := rfl
    exact (run_eq_ok_iff.mp hset).1
  | error e => rfl

end Live

namespace Vfs

/-- The blob that is open under a path, beside its medium. -/
def live (vfs : Vfs) (path medium : String) : Live :=
  ⟨(vfs.registry.partition? path).getD (.blank 0), vfs.world.medium medium⟩

variable {path medium : String} {vfs : Vfs} {live : Live} {handle : Handle}

theorem Serves.live_eq {id : BlobId} (h : Serves path id medium vfs live) :
    vfs.live path medium = live := by
  rw [Vfs.live, h.partition?_eq, h.medium_eq]
  rfl

theorem Serves.answer_read_eq (handle : Handle) (h : Serves path handle.blob medium vfs live)
    (offset len : Nat) :
    (read handle offset len).answer vfs =
      (Blob.read live.partition handle.region offset len : StepM RamDisk Bytes).answer live.disk :=
  (alike_perform h (.read handle offset len) rfl).answer_eq.trans
    (Live.answer_onDisk (fun partition => Blob.read partition handle.region offset len) live)

/-- A write that fails, fails as it does on the medium. -/
theorem Serves.answer_write_error (handle : Handle) (h : Serves path handle.blob medium vfs live)
    {offset : Nat} {data : Bytes} {e : Failure}
    (hwrite : (write handle offset data).answer vfs = .error e) :
    (Blob.write live.partition handle.region offset data : StepM RamDisk Partition).answer
      live.disk = .error e := by
  have hperform := (alike_perform h (.write handle offset data) rfl).answer_eq
  rw [Request.perform, answer_bind, hwrite] at hperform
  have hlive := hperform.trans (Live.answer_setPartition
    (fun partition => Blob.write partition handle.region offset data) live)
  cases hanswer : (Blob.write live.partition handle.region offset data :
      StepM RamDisk Partition).answer live.disk with
  | ok partition =>
    rw [hanswer] at hlive
    cases hlive
  | error e' =>
    rw [hanswer] at hlive
    exact congrArg Except.error (Except.error.inj hlive).symm

theorem Serves.written (handle : Handle) (h : Serves path handle.blob medium vfs live) (offset : Nat)
    (data : Bytes) :
    Serves path handle.blob medium ((write handle offset data).reached vfs)
      (live.after (.write handle.region offset data)) := by
  have hafter := (alike_perform h (.write handle offset data) rfl).reached_rel
  rwa [Request.perform, reached_bind_pure] at hafter

/-- Once a journal is removed the live blob is as it is after an erasure. -/
theorem Serves.removed {id : BlobId} (h : Serves path id medium vfs live) {journal : String}
    (hjournal : splitJournalName journal = (path, true)) :
    Serves path id medium ((remove journal).reached vfs) (live.after .eraseJournal) := by
  have hafter := (alike_perform h (.remove journal) hjournal).reached_rel
  rwa [Request.perform, reached_bind_pure] at hafter

/-! ## A row of requests -/

/-- The database of a path that nobody had open was opened on a medium in memory, and then
requests about the blob were served. -/
structure Served (path medium : String) (vfs : Vfs) (handle : Handle) (opened : Vfs)
    (requests : List Request) : Prop where
  new : vfs.registry.lookup? path = none
  opens : (openVia path .database fun _ => pure (.ram medium)).run vfs = .ok handle opened
  about : ∀ request ∈ requests, request.About path handle.blob medium

/-- On a new file system all requests about the blob that is opened first are served. -/
theorem exists_served (path medium : String) : ∃ (handle : Handle) (opened : Vfs), ∀ requests,
    (∀ request ∈ requests, request.About path handle.blob medium) →
      Served path medium .initial handle opened requests := by
  obtain ⟨handle, opened, hopen, -⟩ := openVia_initial path medium
  exact ⟨handle, opened, fun _ habout => ⟨lookup?_initial path, hopen, habout⟩⟩

namespace Served

variable {opened : Vfs} {requests : List Request}

theorem mounted (h : Served path medium vfs handle opened requests) :
    (Blob.mount path : StepM RamDisk Partition).run (vfs.world.medium medium) =
        .ok (opened.live path medium).partition (opened.live path medium).disk ∧
      Serves path handle.blob medium opened (opened.live path medium) := by
  obtain ⟨start, hmount, hserves⟩ := serves_of_openVia h.new h.opens
  rw [hserves.live_eq]
  exact ⟨hmount, hserves⟩

theorem sound (h : Served path medium vfs handle opened requests) :
    (opened.live path medium).Sound := Live.sound_of_mount h.mounted.1

theorem serves (h : Served path medium vfs handle opened requests) :
    Serves path handle.blob medium (opened.run requests)
      ((opened.live path medium).run (requests.map Request.action)) :=
  serves_run h.mounted.2 h.about

/-- The live blob goes through the actions of the requests. -/
theorem live_run (h : Served path medium vfs handle opened requests) :
    (opened.run requests).live path medium =
      (opened.live path medium).run (requests.map Request.action) := h.serves.live_eq

theorem sound_run (h : Served path medium vfs handle opened requests) :
    ((opened.run requests).live path medium).Sound := by
  rw [h.live_run]
  exact Live.sound_run h.sound _

theorem holds_run (h : Served path medium vfs handle opened requests) :
    ((opened.run requests).live path medium).Holds
      ((opened.live path medium).saved (requests.map Request.action)) := by
  rw [h.live_run]
  exact Live.holds_run h.sound (Live.holds_of_mount h.mounted.1) _

theorem of_append {more : List Request}
    (h : Served path medium vfs handle opened (requests ++ more)) :
    Served path medium vfs handle opened requests :=
  ⟨h.new, h.opens, fun request hrequest => h.about request (List.mem_append_left more hrequest)⟩

/-- A sync of the database that succeeds saves the length that it has. -/
theorem saved_of_sync (h : Served path medium vfs handle opened requests) {before : List Request}
    {syncer : Handle} {flags : Int32} (hlast : requests = before ++ [.sync syncer flags])
    (hregion : syncer.region = .database)
    (hsync : (sync syncer flags).answer (opened.run before) = .ok ()) :
    (opened.live path medium).saved (requests.map Request.action) =
      ((opened.run requests).live path medium).partition.databaseSize := by
  subst hlast
  have habout := h.about (.sync syncer flags) (List.mem_append_right before List.mem_cons_self)
  have hperform : (Request.sync syncer flags).perform.run (opened.run before) =
      .ok #[] ((sync syncer flags).reached (opened.run before)) :=
    run_bind_of_ok (run_eq_ok_iff.mpr ⟨hsync, rfl⟩)
  have hsucceeds := (h.of_append.serves.succeeds_iff habout).mp
    ⟨#[], (run_eq_ok_iff.mp hperform).1⟩
  rw [Request.action, hregion] at hsucceeds
  rw [h.live_run, List.map_append, List.map_singleton, Request.action, hregion, Live.saved,
    Live.track_append, Live.run_append]
  exact Live.keepSaved_of_succeeds (Live.sound_run h.sound _) hsucceeds _

/-! ### After a crash -/

/-- After any requests and a crash the path opens again, with the capacity that it had, the database
length that was saved last, and a journal as long as the blob if the mark is not zero; and the
bytes are those that were there. -/
theorem exists_reopened (h : Served path medium vfs handle opened requests) {faults : DiskFaults}
    (hreads : faults.reads = false) :
    let last := (opened.run requests).live path medium
    ∃ again reopened, ∃ live : Live,
      (openVia path .database fun _ => pure (.ram medium)).run
          ((opened.run requests).crash.run [.setFaults medium faults]) = .ok again reopened ∧
        Serves path again.blob medium reopened live ∧ live.Sound ∧
        live.partition = ⟨last.partition.capacity,
          (opened.live path medium).saved (requests.map Request.action),
          if isMarked last.markBytes then last.partition.capacity else 0⟩ ∧
        live.disk.image = last.disk.image ∧ live.disk.faults.reads = false := by
  intro last
  have hlast : last.Sound := h.sound_run
  have hholds := h.holds_run
  obtain ⟨again, reopened, disk, hagain, hserves, himage, hworks⟩ :=
    reopen (h.live_run ▸ h.serves) hlast hholds hreads
  refine ⟨again, reopened, _, hagain, hserves, ⟨?_, hlast.long, hholds.fits⟩, rfl, himage, hworks⟩
  rw [himage]
  exact hlast.capacity_eq

/-- The database has the length saved last, and right after a sync of it, reads as it did. -/
theorem database_reopens (h : Served path medium vfs handle opened requests) {faults : DiskFaults}
    (hreads : faults.reads = false) :
    let last := (opened.run requests).live path medium
    ∃ again reopened partition,
      (openVia path .database fun _ => pure (.ram medium)).run
          ((opened.run requests).crash.run [.setFaults medium faults]) = .ok again reopened ∧
        reopened.registry.partition? path = some partition ∧
        partition.capacity = (opened.live path medium).partition.capacity ∧
        partition.databaseSize = (opened.live path medium).saved (requests.map Request.action) ∧
        ∀ before syncer flags, requests = before ++ [.sync syncer flags] →
          syncer.region = .database → (sync syncer flags).answer (opened.run before) = .ok () →
          partition.databaseSize = last.partition.databaseSize ∧
          (last.disk.faults.reads = false → ∀ level level' offset len,
            (read ⟨.database, again.blob, level⟩ offset len).answer reopened =
              (read ⟨.database, handle.blob, level'⟩ offset len).answer (opened.run requests)) := by
  intro last
  obtain ⟨again, reopened, live, hagain, hserves, -, hpartition, himage, hworks⟩ :=
    h.exists_reopened hreads
  have hcapacity : live.partition.capacity = (opened.live path medium).partition.capacity := by
    rw [hpartition, h.live_run]
    exact (Live.lengths_run h.sound _).1
  have hsize : live.partition.databaseSize =
      (opened.live path medium).saved (requests.map Request.action) := by rw [hpartition]
  refine ⟨again, reopened, live.partition, hagain, hserves.partition?_eq, hcapacity, hsize, ?_⟩
  intro before syncer flags hlast hregion hsync
  have hsaved := hsize.trans (h.saved_of_sync hlast hregion hsync)
  refine ⟨hsaved, fun hlast level level' offset len => ?_⟩
  rw [Serves.answer_read_eq ⟨.database, again.blob, level⟩ hserves,
    Serves.answer_read_eq ⟨.database, handle.blob, level'⟩ h.serves, ← h.live_run]
  exact Live.answer_read_database hsaved (by rw [himage]) (fun _ _ => by rw [himage])
    (hworks.trans hlast.symm) offset len

/-- A journal no longer than the blob, with a mark that is not zero, is found again: as long as the
blob, and with what could be read of it before. -/
theorem marked_journal_reopens (h : Served path medium vfs handle opened requests)
    {faults : DiskFaults} (hreads : faults.reads = false)
    (hlength : ((opened.run requests).live path medium).partition.journalSize ≤
      ((opened.run requests).live path medium).partition.capacity)
    (hmark : isMarked ((opened.run requests).live path medium).markBytes = true) :
    ∃ again reopened,
      (openVia path .database fun _ => pure (.ram medium)).run
          ((opened.run requests).crash.run [.setFaults medium faults]) = .ok again reopened ∧
        (∀ level, (regionSize ⟨.journal, again.blob, level⟩).answer reopened =
          .ok ((opened.run requests).live path medium).partition.capacity) ∧
        ∀ level level' offset len bytes,
          (read ⟨.journal, handle.blob, level⟩ offset len).answer (opened.run requests) = .ok bytes →
          (read ⟨.journal, again.blob, level'⟩ offset len).answer reopened = .ok bytes := by
  obtain ⟨again, reopened, live, hagain, hserves, hsound, hpartition, himage, hworks⟩ :=
    h.exists_reopened hreads
  rw [if_pos hmark] at hpartition
  have hcapacity : live.partition.capacity =
      ((opened.run requests).live path medium).partition.capacity := by rw [hpartition]
  have hjournal : live.partition.journalSize = live.partition.capacity := by rw [hpartition]
  refine ⟨again, reopened, hagain, fun level => ?_, fun level level' offset len bytes hread => ?_⟩
  · rw [← hcapacity, ← hjournal]
    exact @Serves.answer_regionSize path medium _ _ ⟨.journal, again.blob, level⟩ hserves
  · rw [Serves.answer_read_eq ⟨.journal, handle.blob, level⟩ h.serves, ← h.live_run]
      at hread
    obtain ⟨hin, rfl⟩ := Live.bytes_of_read hread
    have hin : offset + len ≤ live.partition.regionSize .journal :=
      Nat.le_trans (Nat.le_trans hin hlength) (Nat.le_of_eq (hcapacity.symm.trans hjournal.symm))
    rw [Serves.answer_read_eq ⟨.journal, again.blob, level'⟩ hserves,
      hsound.answer_read hworks (Nat.le_of_eq hjournal) hin, himage, hcapacity]
    rfl

/-! ### Room for the database -/

section disciplined

variable (h : Served path medium vfs handle opened requests)
  (hnone : (opened.live path medium).partition.journalSize = 0)
  (hdiscipline : (opened.live path medium).Disciplined (requests.map Request.action))

include h hnone hdiscipline

theorem apart : ((opened.run requests).live path medium).Apart := by
  rw [h.live_run]
  exact Live.apart_run h.sound (h.sound.apart hnone) hdiscipline

/-- The lengths add up to no more than the blob, and no read of the journal comes to a byte of the
header or of the database. -/
theorem journal_stays_clear : ((opened.run requests).live path medium).Spaced ∧
    ((opened.run requests).live path medium).Clear :=
  have hapart := apart h hnone hdiscipline
  ⟨hapart.spaced, h.sound_run.clear_iff_apart.mpr hapart⟩

/-- A write over bytes that the database has is never refused for want of room. -/
theorem in_place_write_has_room (hmodest : (opened.live path medium).Modest) {level offset : Nat}
    {data : Bytes}
    (hin : offset + data.size ≤ ((opened.run requests).live path medium).partition.databaseSize)
    (region : Region) (place count : Nat) :
    (write ⟨.database, handle.blob, level⟩ offset data).answer (opened.run requests) ≠
      .error (.refused (.noRoom region place count)) := by
  intro hanswer
  have hmodest : ((opened.run requests).live path medium).Modest := by
    rw [h.live_run]
    exact Live.modest_run h.sound hmodest _
  have hguard := (apart h hnone hdiscipline).guardDatabaseWrite h.sound_run hmodest hin
  have hwrite := Serves.answer_write_error ⟨.database, handle.blob, level⟩ h.serves hanswer
  rw [← h.live_run] at hwrite
  have hends := Blob.ends_write_database ((opened.run requests).live path medium).partition offset
    data ((opened.run requests).live path medium).disk
  exact (hends.failure _ hwrite).2 hguard region place count rfl

end disciplined

/-! ### What the journal does to the database -/

/-- If the database, as it was found and as far as it may grow, ends two blocks below the end of
the blob, it reads the same before and after its journal is removed. -/
theorem removal_spares_database (h : Served path medium vfs handle opened requests)
    {journal : String} (hjournal : splitJournalName journal = (path, true))
    (hroom : max (opened.live path medium).partition.databaseSize
        (databaseCeiling (opened.live path medium).partition.capacity) + 2 * blockSize ≤
      (opened.live path medium).partition.capacity) (level offset len : Nat) :
    (read ⟨.database, handle.blob, level⟩ offset len).answer
        ((remove journal).reached (opened.run requests)) =
      (read ⟨.database, handle.blob, level⟩ offset len).answer (opened.run requests) := by
  have hsize := Live.databaseSize_run_le h.sound (requests.map Request.action)
  have hcapacity := (Live.lengths_run h.sound (requests.map Request.action)).1
  have hsound := Live.sound_run h.sound (requests.map Request.action)
  have hspares := hsound.spares_of_two_blocks (by omega)
  rw [Serves.answer_read_eq ⟨.database, handle.blob, level⟩
      (h.serves.removed hjournal),
    Serves.answer_read_eq ⟨.database, handle.blob, level⟩ h.serves]
  exact hsound.answer_read_spared hspares offset len

/-- No journal write, accepted or not, changes a byte that both the size word and the database reach
over. -/
theorem journal_write_spares_persisted (h : Served path medium vfs handle opened requests)
    (level offset : Nat) (data : Bytes) {i : Nat}
    (hi : i < min ((opened.run requests).live path medium).persisted
      ((opened.run requests).live path medium).partition.databaseSize) :
    ((((write ⟨.journal, handle.blob, level⟩ offset data).reached
        (opened.run requests)).world.medium medium).image.byte (blockSize + i)) =
      ((opened.run requests).world.medium medium).image.byte (blockSize + i) := by
  have hwritten := Serves.written ⟨.journal, handle.blob, level⟩ h.serves offset data
  rw [hwritten.medium_eq, h.serves.medium_eq]
  rw [h.live_run] at hi
  have hsound := Live.sound_run h.sound (requests.map Request.action)
  exact (Live.change_after hsound.block_le _).byte_journal hsound (by omega)

/-- If the journal was never written while the size word promised more than the database had, and
the database never grew over a gap, then the database that opens again after a crash is what it
would be without the journal's writes. -/
theorem persisted_database_reopens (h : Served path medium vfs handle opened requests)
    {faults : DiskFaults} (hreads : faults.reads = false)
    (hheeds : (opened.live path medium).Meets Live.Heeds (requests.map Request.action)) :
    ∃ again reopened,
      (openVia path .database fun _ => pure (.ram medium)).run
          ((opened.run requests).crash.run [.setFaults medium faults]) = .ok again reopened ∧
        ∀ level, (regionSize ⟨.database, again.blob, level⟩).answer reopened =
            .ok ((opened.run requests).live path medium).persisted ∧
          ∀ offset len, offset + len ≤ ((opened.run requests).live path medium).persisted →
            (read ⟨.database, again.blob, level⟩ offset len).answer reopened =
              .ok (((opened.live path medium).unjournaled (requests.map Request.action)).gather
                (blockSize + ·) offset len) := by
  obtain ⟨again, reopened, live, hagain, hserves, hsound, hpartition, himage, hworks⟩ :=
    h.exists_reopened hreads
  have hsize : live.partition.databaseSize =
      ((opened.run requests).live path medium).persisted := by
    rw [hpartition, h.holds_run.persisted_eq]
  have hjournal : live.partition.journalSize ≤ live.partition.capacity := by
    rw [hpartition]
    dsimp only
    split
    · exact Nat.le_refl _
    · exact Nat.zero_le _
  have hstart := Live.holds_of_mount h.mounted.1
  have hagrees := Live.agrees_run h.sound (hstart.persisted_eq.symm ▸ hstart) hheeds
  rw [← h.live_run] at hagrees
  refine ⟨again, reopened, hagain, fun level => ⟨?_, fun offset len hin => ?_⟩⟩
  · rw [← hsize]
    exact @Serves.answer_regionSize path medium _ _ ⟨.database, again.blob, level⟩ hserves
  · have hin' : offset + len ≤ live.partition.regionSize .database :=
      Nat.le_trans hin (Nat.le_of_eq hsize.symm)
    rw [Serves.answer_read_eq ⟨.database, again.blob, level⟩ hserves,
      hsound.answer_read hworks hjournal hin', himage]
    refine congrArg Except.ok (Image.gather_congr fun i hi => hagrees (blockSize + i) ?_)
    exact Nat.add_lt_add_left (Nat.lt_of_lt_of_le hi (Nat.le_trans hin (Nat.le_max_left ..))) blockSize

end Served

end Vfs

end TwinRegion
