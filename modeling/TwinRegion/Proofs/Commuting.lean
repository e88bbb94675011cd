/-
TwinRegion.Proofs.Commuting — database and journal writes change places.

The two writes are admitted by different rules: a database write has to end
in front of the journal's reserve, in whole blocks, and a journal write has
to start each of its runs above the database. Each changes what the other is
measured by. Still the order does not matter to whether both are accepted
(`guards_commute`): the reserve of the grown journal starts where the old
one does, or at the last run of the write (`le_reserve_grown_iff`), if the
write starts inside the journal or at a block.

What is accepted in both orders lies apart, so the bytes do not depend on
the order either (`writes_commute`).
-/
import TwinRegion.Proofs.Discipline
import TwinRegion.Proofs.Everywhere
import TwinRegion.Proofs.Stopping

namespace TwinRegion

open StepM Vfs TwinRegion.Partition

/-! ## Bytes -/

/-- Writes that do not overlap change places. -/
theorem Image.write_comm (image : Image) {offset start : Nat} {data more : Bytes}
    (h : offset + data.size ≤ start ∨ start + more.size ≤ offset) :
    (image.write offset data).write start more = (image.write start more).write offset data := by
  apply Image.ext_byte
  · simp only [Image.size_write]
    omega
  · intro x
    simp only [Image.byte_write]
    by_cases hdata : offset ≤ x ∧ x < offset + data.size
    · rw [if_neg (by omega), if_pos hdata, if_pos hdata]
    · simp only [if_neg hdata]

/-- A write below all runs may as well come after them. -/
theorem Partition.lay_write_below {more data : Bytes} {image : Image} {runs : List Extent}
    {offset : Nat} (h : ∀ run ∈ runs, offset + data.size ≤ run.address) :
    lay more (image.write offset data) runs = (lay more image runs).write offset data := by
  induction runs generalizing image with
  | nil => rfl
  | cons run rest ih =>
    rw [lay, lay, Image.write_comm image (.inl (h run List.mem_cons_self)),
      ih fun other hother => h other (List.mem_cons_of_mem _ hother)]

/-! ## Room -/

namespace Partition

variable {partition : Partition} {offset len start size last stop : Nat}

/-- What ends in front of a grown journal's reserve is what ends in front of the old one and of the
last run, if the write began inside the journal or at a block. -/
theorem le_reserve_grown_iff (hsize : 0 < size)
    (hstart : start ≤ partition.journalSize ∨ start % blockSize = 0)
    (hblock : last / blockSize = (start + size - 1) / blockSize)
    (hlast : last = start ∨ last % blockSize = 0) (hhoused : Housed partition.capacity last) :
    stop ≤ partition.capacity -
        ({ partition with journalSize := max partition.journalSize (start + size) } :
          Partition).reserve ↔
      stop ≤ partition.capacity - partition.reserve ∧ stop ≤ place partition.capacity last := by
  by_cases hinside : start + size ≤ partition.journalSize
  · -- the journal does not grow, and its reserve covers the place
    have hplace : partition.capacity - partition.reserve ≤ place partition.capacity last := by
      refine reserve_le_place ?_ hhoused
      unfold blockSize at hblock hlast
      omega
    rw [Nat.max_eq_left hinside]
    show stop ≤ partition.capacity - partition.reserve ↔ _
    omega
  · rw [Nat.max_eq_right (by omega)]
    unfold reserve blocksFor place Housed blockSize at *
    dsimp only
    omega

/-- Both guards pass in one order if they do in the other. -/
theorem guards_commute (hsize : 0 < size) (hend : start + size < 1 <<< 63)
    (hstart : start ≤ partition.journalSize ∨ start % blockSize = 0)
    (hblock : last / blockSize = (start + size - 1) / blockSize)
    (hlast : last = start ∨ last % blockSize = 0) :
    (partition.guardDatabaseWrite offset len = .ok () ∧
      max partition.databaseSize (offset + len) + blockSize ≤ place partition.capacity last) ↔
    (partition.databaseSize + blockSize ≤ place partition.capacity last ∧
      ({ partition with journalSize := max partition.journalSize (start + size) } :
        Partition).guardDatabaseWrite offset len = .ok ()) := by
  rw [guardDatabaseWrite_eq_ok_iff, guardDatabaseWrite_eq_ok_iff]
  dsimp only
  have hlimit : max partition.journalSize (start + size) + blockSize < Word.limit ↔
      partition.journalSize + blockSize < Word.limit := by
    unfold Word.limit blockSize
    omega
  rw [hlimit]
  by_cases habove : partition.databaseSize + blockSize ≤ place partition.capacity last
  · have hhoused : Housed partition.capacity last := housed_of_le_place (by omega)
    rw [le_reserve_grown_iff hsize hstart hblock hlast hhoused]
    have hmax : max partition.databaseSize (offset + len) + blockSize ≤
          place partition.capacity last ↔ offset + len + blockSize ≤ place partition.capacity last := by
      omega
    rw [hmax]
    constructor
    · rintro ⟨⟨hstop, hjournal, hroom, hceiling, hword⟩, hplace⟩
      exact ⟨habove, hstop, hjournal, ⟨hroom, hplace⟩, hceiling, hword⟩
    · rintro ⟨-, hstop, hjournal, ⟨hroom, hplace⟩, hceiling, hword⟩
      exact ⟨⟨hstop, hjournal, hroom, hceiling, hword⟩, hplace⟩
  · refine iff_of_false ?_ fun h => habove h.1
    rintro ⟨-, hplace⟩
    omega

end Partition

/-! ## Writes on a device that takes them -/

/-- A database write that its guard lets pass goes through. -/
theorem Blob.ends_write_database_accepts {δ : Type} [Disk δ] {contents : δ → Image}
    {sound : δ → Prop} {partition : Partition} {offset : Nat} {data : Bytes} {s : δ}
    (haccepts : Disk.Accepts contents blockSize partition.capacity sound)
    (hend : offset + data.size + blockSize < Word.limit) (hs : sound s) :
    (write partition .database offset data : StepM δ Partition).Ends s
      (fun next s' => partition.guardDatabaseWrite offset data.size = .ok () ∧
        next = { partition with databaseSize := max partition.databaseSize (offset + data.size) } ∧
        sound s' ∧ contents s' = (contents s).write (blockSize + offset) data)
      (fun _ _ => partition.guardDatabaseWrite offset data.size ≠ .ok ()) := by
  refine .check_ok_bind (Word.add_eq_ok_iff.mpr ⟨by omega, rfl⟩) ?_
  refine .check_bind (fun e he hok => ?_) fun _ hguard => ?_
  · rw [hok] at he
    cases he
  refine (haccepts.ends_ready hs).bind (fun _ _ h => h.elim) ?_
  rintro _ _ rfl
  obtain ⟨-, -, hroom, -, -⟩ := guardDatabaseWrite_eq_ok_iff.mp hguard
  refine .check_ok_bind (Word.add_eq_ok_iff.mpr ⟨by omega, rfl⟩) ?_
  refine (haccepts.write _ _ data hs (Nat.le_add_right ..) (by omega)).bind
    (fun _ _ h => h.elim) ?_
  rintro _ s' ⟨hsound, hcontents⟩
  exact .pure ⟨hguard, rfl, hsound, hcontents⟩

namespace Vfs

variable {vfs : Vfs} {database journal : Handle} {sound : Attached → Prop} {partition : Partition}
  {image : Image} {offset start : Nat} {data more : Bytes}

theorem ends_write_database (hblob : vfs.BlobIs database.blob sound partition image)
    (hregion : database.region = .database)
    (haccepts : Disk.Accepts Attached.image blockSize partition.capacity sound)
    (hend : offset + data.size + blockSize < Word.limit) :
    (write database offset data).Ends vfs
      (fun _ vfs' => partition.guardDatabaseWrite offset data.size = .ok () ∧
        vfs'.BlobIs database.blob sound
          { partition with databaseSize := max partition.databaseSize (offset + data.size) }
          (image.write (blockSize + offset) data))
      (fun _ _ => partition.guardDatabaseWrite offset data.size ≠ .ok ()) := by
  obtain ⟨region, id, level⟩ := database
  obtain rfl : region = .database := hregion
  obtain ⟨record, hrecord, rfl, hsound, rfl⟩ := hblob
  refine (ends_write hrecord (Blob.ends_write_database_accepts haccepts hend hsound)).mono ?_ ?_
  · rintro _ _ ⟨_, a, rfl, hguard, rfl, ha, hwritten⟩
    exact ⟨hguard, blobIs_settle hrecord ha hwritten⟩
  · rintro e _ ⟨a, rfl, hguard⟩
    exact hguard

theorem answer_write_database_iff (hblob : vfs.BlobIs database.blob sound partition image)
    (hregion : database.region = .database)
    (haccepts : Disk.Accepts Attached.image blockSize partition.capacity sound)
    (hend : offset + data.size + blockSize < Word.limit) :
    (write database offset data).answer vfs = .ok () ↔
      partition.guardDatabaseWrite offset data.size = .ok () := by
  have hends := ends_write_database hblob hregion haccepts hend
  constructor
  · exact fun hok => (hends.value () hok).1
  · intro hguard
    cases hanswer : (write database offset data).answer vfs with
    | ok _ => rfl
    | error e => exact absurd hguard (hends.failure e hanswer)

section orders

variable (hblob : vfs.BlobIs database.blob sound partition image)
  (hdatabase : database.region = .database) (hjournal : journal.region = .journal)
  (hsame : journal.blob = database.blob)
  (haccepts : Disk.Accepts Attached.image 0 partition.capacity sound)
  (hfits : partition.databaseSize + blockSize ≤ partition.capacity)
  (hcapacity : partition.capacity < Word.limit)
  (hend : offset + data.size < 1 <<< 63) (hlong : start + more.size < 1 <<< 63)

include hblob hdatabase hjournal hsame haccepts hfits hcapacity hend hlong

/-- The database write first: when both writes are accepted, and what they leave. -/
theorem database_then_journal {run : Extent}
    (hrun : (partition.extents start more.size).runs.getLast? = some run) :
    let both := do write database offset data; write journal start more
    (both.answer vfs = .ok () ↔ partition.guardDatabaseWrite offset data.size = .ok () ∧
      max partition.databaseSize (offset + data.size) + blockSize ≤ run.address) ∧
    (both.answer vfs = .ok () → (both.reached vfs).BlobIs database.blob sound
      ⟨partition.capacity, max partition.databaseSize (offset + data.size),
        max partition.journalSize (start + more.size)⟩
      (lay more (image.write (blockSize + offset) data) (partition.extents start more.size).runs)) := by
  intro both
  have hshort : offset + data.size + blockSize < Word.limit ∧
      start + more.size + blockSize ≤ Word.limit := by
    unfold Word.limit blockSize
    omega
  have hwrites := ends_write_database hblob hdatabase (haccepts.mono (Nat.zero_le _)) hshort.1
  have hanswer := answer_write_database_iff hblob hdatabase (haccepts.mono (Nat.zero_le _)) hshort.1
  rw [answer_then_iff, hanswer]
  -- the journal write meets the wider database, which still fits
  have hthen : partition.guardDatabaseWrite offset data.size = .ok () →
      ((write journal start more).answer ((write database offset data).reached vfs) = .ok () ↔
        max partition.databaseSize (offset + data.size) + blockSize ≤ run.address) ∧
      (write journal start more).Ends ((write database offset data).reached vfs)
        (fun _ vfs' => vfs'.BlobIs database.blob sound
          ⟨partition.capacity, max partition.databaseSize (offset + data.size),
            max partition.journalSize (start + more.size)⟩
          (lay more (image.write (blockSize + offset) data)
            (partition.extents start more.size).runs)) (fun _ _ => True) := by
    intro hguard
    have hwider := (hwrites.value () (hanswer.mpr hguard)).2
    rw [← hsame] at hwider ⊢
    have hroom : max partition.databaseSize (offset + data.size) + blockSize ≤
        partition.capacity := by
      obtain ⟨-, -, hroom, -, -⟩ := guardDatabaseWrite_eq_ok_iff.mp hguard
      omega
    refine ⟨answer_write_journal_iff hwider hjournal (haccepts.mono (Nat.zero_le _)) hroom hcapacity
      hshort.2 hrun, ?_⟩
    exact (ends_write_journal hwider hjournal (haccepts.mono (Nat.zero_le _)) hroom hcapacity
      hshort.2).mono (fun _ _ h => h.2) fun _ _ _ => trivial
  refine ⟨and_congr_right fun hguard => (hthen hguard).1, fun hok => ?_⟩
  rw [reached_then (hanswer.mpr hok.1)]
  exact (hthen hok.1).2.value () hok.2

/-- The journal write first. -/
theorem journal_then_database {run : Extent}
    (hrun : (partition.extents start more.size).runs.getLast? = some run) :
    let both := do write journal start more; write database offset data
    (both.answer vfs = .ok () ↔ partition.databaseSize + blockSize ≤ run.address ∧
      ({ partition with journalSize := max partition.journalSize (start + more.size) } :
        Partition).guardDatabaseWrite offset data.size = .ok ()) ∧
    (both.answer vfs = .ok () → (both.reached vfs).BlobIs database.blob sound
      ⟨partition.capacity, max partition.databaseSize (offset + data.size),
        max partition.journalSize (start + more.size)⟩
      ((lay more image (partition.extents start more.size).runs).write (blockSize + offset) data)) := by
  intro both
  have hshort : offset + data.size + blockSize < Word.limit ∧
      start + more.size + blockSize ≤ Word.limit := by
    unfold Word.limit blockSize
    omega
  rw [← hsame] at hblob
  have hwrites := ends_write_journal hblob hjournal (haccepts.mono (Nat.zero_le _)) hfits hcapacity
    hshort.2
  have hanswer := answer_write_journal_iff hblob hjournal (haccepts.mono (Nat.zero_le _)) hfits
    hcapacity hshort.2 hrun
  rw [answer_then_iff, hanswer]
  have hthen : partition.databaseSize + blockSize ≤ run.address →
      ((write journal start more).reached vfs).BlobIs database.blob sound
        { partition with journalSize := max partition.journalSize (start + more.size) }
        (lay more image (partition.extents start more.size).runs) := by
    intro habove
    rw [← hsame]
    exact (hwrites.value () (hanswer.mpr habove)).2
  refine ⟨and_congr_right fun habove => ?_, fun hok => ?_⟩
  · exact answer_write_database_iff (hthen habove) hdatabase (haccepts.mono (Nat.zero_le _)) hshort.1
  · rw [reached_then (hanswer.mpr hok.1)]
    exact ((ends_write_database (hthen hok.1) hdatabase (haccepts.mono (Nat.zero_le _))
      hshort.1).value () hok.2).2

end orders

end Vfs

namespace Session

/-- In every state that a session can come to, on a device that takes the writes inside the blob: a
database write and a journal write that is not empty and starts inside the journal or at a block
are both accepted in one order if they are in the other, and then the order makes no difference to
the partition and to the bytes of the device. -/
theorem writes_commute (world : World) (deeds : List Deed) {database journal : Handle}
    {sound : Attached → Prop} {partition : Partition} {image : Image} {offset start : Nat}
    {data more : Bytes}
    (hblob : ((Session.start world).run deeds).vfs.BlobIs database.blob sound partition image)
    (hdatabase : database.region = .database) (hjournal : journal.region = .journal)
    (hsame : journal.blob = database.blob)
    (haccepts : Disk.Accepts Attached.image 0 partition.capacity sound)
    (hend : offset + data.size < 1 <<< 63) (hlong : start + more.size < 1 <<< 63)
    (hsome : 0 < more.size) (hstart : start ≤ partition.journalSize ∨ start % blockSize = 0) :
    let vfs := ((Session.start world).run deeds).vfs
    let databaseFirst := do write database offset data; write journal start more
    let journalFirst := do write journal start more; write database offset data
    (databaseFirst.answer vfs = .ok () ↔ journalFirst.answer vfs = .ok ()) ∧
    (databaseFirst.answer vfs = .ok () → ∃ after bytes,
      (databaseFirst.reached vfs).BlobIs database.blob sound after bytes ∧
      (journalFirst.reached vfs).BlobIs database.blob sound after bytes) := by
  intro vfs databaseFirst journalFirst
  obtain ⟨record, hrecord, rfl, -⟩ := id hblob
  have hformed := formed_run world deeds _ record hrecord
  obtain ⟨hspan, run, hrun⟩ := @exists_getLast_extents record.partition start more hformed.fits
    hformed.capacity_lt hsome (by unfold Word.limit blockSize; omega)
  have htiles := tiles_extents record.partition start more.size
  have hne : (record.partition.extents start more.size).runs ≠ [] := by
    intro hnil
    rw [hnil] at hrun
    cases hrun
  obtain ⟨last, hblock, hlast, other, hother, haddress⟩ := htiles.exists_last hne
  obtain rfl : run = other := Option.some.inj (hrun.symm.trans hother)
  rw [hspan] at hblock
  obtain ⟨hfirst, hdone⟩ := database_then_journal hblob hdatabase hjournal hsame haccepts
    hformed.fits hformed.capacity_lt hend hlong hrun
  obtain ⟨hsecond, hdone'⟩ := journal_then_database hblob hdatabase hjournal hsame haccepts
    hformed.fits hformed.capacity_lt hend hlong hrun
  have hboth : databaseFirst.answer vfs = .ok () ↔ journalFirst.answer vfs = .ok () := by
    rw [hfirst, hsecond, haddress]
    exact guards_commute hsome hlong hstart hblock hlast
  refine ⟨hboth, fun hok => ⟨_, _, hdone hok, ?_⟩⟩
  -- the database ends below the last run, and all runs are above that
  rw [lay_write_below fun earlier hearlier => ?_]
  · exact hdone' (hboth.mp hok)
  · have hlow := address_last_le htiles.descends hrun earlier hearlier
    have hbelow := (hfirst.mp hok).2
    omega

/-- A byte of database and a byte of journal in a blob that was just opened. -/
theorem writes_commute_fresh :
    ∃ (database journal : Handle) (after : Partition) (bytes : Image),
      let vfs := ((Session.start .initial).run
        [.opening "a" .database fun _ => pure (.ram "m")]).vfs
      let sound := fun a : Attached =>
        a.device = some (.ram "m") ∧ (a.world.medium "m").Obliging standardCapacity
      let databaseFirst := do write database 0 #[1]; write journal 0 #[2]
      let journalFirst := do write journal 0 #[2]; write database 0 #[1]
      databaseFirst.answer vfs = .ok () ∧ journalFirst.answer vfs = .ok () ∧
        (databaseFirst.reached vfs).BlobIs database.blob sound after bytes ∧
        (journalFirst.reached vfs).BlobIs database.blob sound after bytes := by
  obtain ⟨handle, opened, hopen, hserves⟩ := openVia_initial "a" "m"
  have hvfs : ((Session.start .initial).run
      [.opening "a" .database fun _ => pure (.ram "m")]).vfs = opened := by
    show ((Session.start .initial).after (.opening "a" .database fun _ => pure (.ram "m"))).vfs =
      opened
    exact vfs_after_opening hopen
  obtain ⟨record, hrecord, hdevice, hpartition⟩ := hserves.record
  have hblob : opened.BlobIs handle.blob
      (fun a => a.device = some (.ram "m") ∧ (a.world.medium "m").Obliging standardCapacity)
      (.blank standardCapacity) RamDisk.materialised.image := by
    refine ⟨record, hrecord, hpartition, ⟨hdevice, ?_⟩, ?_⟩
    · show (opened.world.medium "m").Obliging standardCapacity
      rw [hserves.medium_eq]
      exact RamDisk.healthy_materialised.obliging (by decide)
    · rw [Attached.image, attached, hdevice]
      show (opened.world.medium "m").image = _
      rw [hserves.medium_eq]
      rfl
  have hruns : ((Partition.blank standardCapacity).extents 0 (#[2] : Bytes).size).runs.getLast? =
      some ⟨place standardCapacity 0, 1, 0⟩ := by
    rw [show (#[2] : Bytes).size = 1 from rfl, Blob.extents_in_block (by decide) (by decide) (by decide)
      (by decide)]
    rfl
  have haccepts := Attached.accepts_ram "m" standardCapacity
  have hfirst := @database_then_journal opened ⟨.database, handle.blob, 0⟩ ⟨.journal, handle.blob, 0⟩
    _ _ _ 0 0 #[1] #[2] hblob rfl rfl rfl haccepts (by decide) (by decide) (by decide) (by decide)
    _ hruns
  have hok := hfirst.1.mpr ⟨guardDatabaseWrite_eq_ok_iff.mpr (by decide), by decide⟩
  rw [← hvfs] at hblob hok
  obtain ⟨hboth, hsame⟩ := @writes_commute .initial
    [.opening "a" .database fun _ => pure (.ram "m")] ⟨.database, handle.blob, 0⟩
    ⟨.journal, handle.blob, 0⟩ _ _ _ 0 0 #[1] #[2] hblob rfl rfl rfl haccepts (by decide) (by decide)
    (by decide) (.inl (Nat.zero_le _))
  obtain ⟨after, bytes, hdatabase, hjournal⟩ := hsame hok
  exact ⟨_, _, after, bytes, hok, hboth.mp hok, hdatabase, hjournal⟩

end Session

end TwinRegion
