/-
TwinRegion.Proofs.Persisted — the journal beside the database on the medium.

The guard of a journal write knows the length that the database has now, and
the next opening believes the size word, which may promise more. Below both
no journal write changes a byte (`Change.byte_journal`). To see what that is
worth over a run, the medium is carried along a second time without the
journal's writes (`unjournaled`). Where the database reached over a byte
whenever the journal was written, the two agree; they agree on the whole of
the database that the next opening finds if the journal was never written
while the size word promised more than there was, and the database never
grew over a gap (`persisted_database_spared`). A database that is cut short
and not synced yet loses bytes to the journal (`journal_write_spoils_persisted`).
-/
import TwinRegion.Proofs.Crash
import TwinRegion.Proofs.Erasure

namespace TwinRegion

open TwinRegion.Partition RamDisk

namespace Live

variable {live next : Live} {action : Action} {ok : Bool}

/-- The length of the database by the size word on the medium. -/
def persisted (live : Live) : Nat := sizeOfWord (live.disk.image.read 0 wordSize)

theorem Holds.persisted_eq {saved : Nat} (h : live.Holds saved) : live.persisted = saved := h.word

/-- The medium after an action, had the journal not been written to. -/
def unjournaledAfter (live : Live) (action : Action) (ok : Bool) (image : Image) : Image :=
  match action with
  | .write .database offset data => if ok then image.write (blockSize + offset) data else image
  | .sync .database _ =>
    if live.disk.takes 0 (sizeWord live.partition.databaseSize) then
      image.write 0 (sizeWord live.partition.databaseSize)
    else image
  | .eraseJournal =>
    let headless :=
      if live.disk.takes (live.partition.capacity - blockSize) (Bytes.zeros wordSize) then
        image.write (live.partition.capacity - blockSize) (Bytes.zeros wordSize)
      else image
    if ok then headless.write live.markPlace (Bytes.zeros wordSize) else headless
  | _ => image

/-- What a run makes of the medium apart from its journal writes: the database's own writes, its
size words, and the zeros of the erasures. -/
def unjournaled (start : Live) (actions : List Action) : Image :=
  track (fun live action => live.unjournaledAfter action (live.succeeds action)) start
    start.disk.image actions

/-! ## Steps -/

/-- A journal write, accepted or not, changes no byte of the header nor of the database. -/
theorem Change.byte_journal (hsound : live.Sound) {offset : Nat} {data : Bytes}
    (h : Change live (.write .journal offset data) ok next) {x : Nat}
    (hx : x < blockSize + live.partition.databaseSize) :
    next.disk.image.byte x = live.disk.image.byte x := by
  have hruns : (lay data live.disk.image
      (Blob.storedRuns live.partition offset data live.disk)).byte x = live.disk.image.byte x := by
    refine byte_lay_of_outside fun run hrun => .inl ?_
    have := (Blob.storedRuns_bounds hsound.block_le hrun).1
    omega
  cases h with
  | journalWritten _ _ hdisk | journalCut hdisk => rw [hdisk.image_eq, hruns]

/-- A byte that is the same without the journal's writes stays the same, if the database reaches
over it whenever the journal is written. -/
theorem Change.byte_unjournaled (hsound : live.Sound) (hchange : Change live action ok next)
    {image : Image} {x : Nat}
    (hjournal : ∀ offset data, action = .write .journal offset data →
      x < blockSize + live.partition.databaseSize)
    (h : live.disk.image.byte x = image.byte x) :
    next.disk.image.byte x = (live.unjournaledAfter action ok image).byte x := by
  have hwritten : ∀ offset data, (live.disk.written offset data).byte x =
      (if live.disk.takes offset data then image.write offset data else image).byte x := by
    intro offset data
    rw [written]
    split
    · exact Image.byte_write_congr h offset data
    · exact h
  have hkept := hchange
  cases hchange with
  | read hdisk | databaseKept hdisk | journalSync hdisk => rwa [hdisk.image_eq]
  | truncated | faulted => exact h
  | journalWritten | journalCut => exact (hkept.byte_journal hsound (hjournal _ _ rfl)).trans h
  | databaseWritten hguard hdisk =>
    rw [hdisk.image_eq]
    exact Image.byte_write_congr h _ _
  | databaseSynced _ hdisk | databaseUnsynced hdisk =>
    rw [hdisk.image_eq]
    exact hwritten _ _
  | erased htakes hdisk =>
    have hhead := hwritten (live.partition.capacity - blockSize) (Bytes.zeros wordSize)
    rw [written, if_pos htakes] at hhead
    rw [hdisk.image_eq]
    exact Image.byte_write_congr hhead _ _
  | halfErased hdisk =>
    rw [hdisk.image_eq]
    exact hwritten _ _

/-- A byte that the database has written is the same without the journal's writes. -/
theorem byte_unjournaled_of_covered {offset : Nat} {data : Bytes}
    (hchange : Change live (.write .database offset data) true next) {image : Image} {x : Nat}
    (hle : blockSize + offset ≤ x) (hlt : x < blockSize + offset + data.size) :
    next.disk.image.byte x =
      (live.unjournaledAfter (.write .database offset data) true image).byte x := by
  cases hchange with
  | databaseWritten hguard hdisk =>
    rw [hdisk.image_eq, Image.byte_write, if_pos ⟨hle, hlt⟩]
    exact (Image.byte_write .. |>.trans (if_pos ⟨hle, hlt⟩)).symm

/-- The journal is not written while the size word promises more than the database has, and the
database does not grow over a gap. -/
def Heeds (live : Live) : Action → Prop
  | .write .journal _ _ => live.persisted ≤ live.partition.databaseSize
  | .write .database offset data =>
    live.succeeds (.write .database offset data) = true → offset ≤ live.partition.databaseSize
  | _ => True

/-- The database reaches over a byte if it is the journal that is written. -/
def Covers (i : Nat) (live : Live) : Action → Prop
  | .write .journal _ _ => i < live.partition.databaseSize
  | _ => True

/-- The header, the database and what the size word promises of it are the same without the
journal's writes. -/
def Agrees (live : Live) (image : Image) : Prop :=
  ∀ x < blockSize + max live.persisted live.partition.databaseSize,
    live.disk.image.byte x = image.byte x

/-- A write that leaves no gap covers whatever it adds to the database; nothing else adds to it, or to
what the size word promises beyond it. -/
theorem Change.reached (hchange : Change live action ok next) {saved x : Nat}
    (hgap : ∀ offset data, action = .write .database offset data → ok = true →
      offset ≤ live.partition.databaseSize)
    (hx : x < blockSize + max (keepSaved live action saved) next.partition.databaseSize) :
    x < blockSize + max saved live.partition.databaseSize ∨
      ∃ offset data, action = .write .database offset data ∧ ok = true ∧
        blockSize + offset ≤ x ∧ x < blockSize + offset + data.size := by
  cases hchange with
  | @databaseWritten offset data _ hguard hdisk =>
    have hstart := hgap offset data rfl rfl
    simp only [keepSaved] at hx
    by_cases hin : x < blockSize + max saved live.partition.databaseSize
    · exact .inl hin
    · exact .inr ⟨offset, data, rfl, rfl, by omega, by omega⟩
  | @truncated region size =>
    refine .inl (Nat.lt_of_lt_of_le hx ?_)
    cases region with
    | database =>
      have := Nat.min_le_left live.partition.databaseSize size
      simp only [keepSaved, Blob.truncate]
      omega
    | journal => exact Nat.le_refl _
  | databaseSynced | databaseUnsynced =>
    refine .inl (Nat.lt_of_lt_of_le hx ?_)
    simp only [keepSaved]
    split <;> omega
  | _ => exact .inl hx

theorem agrees_after (hsound : live.Sound) (hholds : live.Holds live.persisted)
    (hheeds : live.Heeds action) {image : Image} (h : live.Agrees image) :
    (live.after action).Agrees (live.unjournaledAfter action (live.succeeds action) image) := by
  intro x hx
  rw [(holds_after hsound hholds action).persisted_eq] at hx
  have hchange := change_after hsound.block_le action
  have hgap : ∀ offset data, action = .write .database offset data →
      live.succeeds action = true → offset ≤ live.partition.databaseSize := by
    rintro offset data rfl
    exact hheeds
  rcases hchange.reached hgap hx with hin | ⟨offset, data, rfl, hok, hle, hlt⟩
  · refine hchange.byte_unjournaled hsound ?_ (h x hin)
    rintro offset data rfl
    exact Nat.max_eq_right hheeds ▸ hin
  · rw [hok] at hchange ⊢
    exact byte_unjournaled_of_covered hchange hle hlt

/-! ## Runs -/

theorem byte_unjournaled_run (hsound : live.Sound) {actions : List Action} {i : Nat}
    (hcovers : live.Meets (Covers i) actions) :
    (live.run actions).disk.image.byte (blockSize + i) =
      (live.unjournaled actions).byte (blockSize + i) := by
  refine track_along (fun live (image : Image) =>
    live.disk.image.byte (blockSize + i) = image.byte (blockSize + i)) (Covers i) ?_ hsound rfl
    hcovers
  intro live action image hsound hcovers h
  refine (change_after hsound.block_le action).byte_unjournaled hsound ?_ h
  rintro offset data rfl
  exact Nat.add_lt_add_left hcovers blockSize

theorem agrees_run (hsound : live.Sound) (hholds : live.Holds live.persisted)
    {actions : List Action} (hheeds : live.Meets Heeds actions) :
    (live.run actions).Agrees (live.unjournaled actions) := by
  refine (track_along (fun live image => live.Holds live.persisted ∧ live.Agrees image) Heeds ?_
    hsound ⟨hholds, fun _ _ => rfl⟩ hheeds).2
  rintro live action image hsound hheeds ⟨hholds, h⟩
  have hnext := holds_after hsound hholds action
  exact ⟨hnext.persisted_eq.symm ▸ hnext, agrees_after hsound hholds hheeds h⟩

/-- A healthy medium takes a sync of the database, which brings the size word up to date. -/
theorem synced_of_healthy (hsound : live.Sound) (hhealthy : live.disk.Healthy) (flags : Int32) :
    (live.after (.sync .database flags)).partition = live.partition ∧
      (live.after (.sync .database flags)).disk.Healthy ∧
      (live.after (.sync .database flags)).Holds live.partition.databaseSize ∧
      ∀ x, blockSize ≤ x → (live.after (.sync .database flags)).disk.image.byte x =
        live.disk.image.byte x := by
  obtain ⟨disk, hrun, hhealthy, himage⟩ := run_sync_database hhealthy flags
  have hfits := hsound.fits
  have hcapacity := hsound.capacity_lt
  have hword : wordSize ≤ blockSize := by decide
  rw [after_of_run_ok hrun]
  refine ⟨rfl, hhealthy, ⟨?_, hfits⟩, fun x hx => ?_⟩
  · rw [himage]
    exact sizeOfWord_write (by omega)
  · rw [himage, Image.byte_write, if_neg (by rw [Blob.size_sizeWord]; omega)]

/-- After a crash the database is as long as the size word says, and reads as it is on the medium. -/
theorem Holds.reopens (hsound : live.Sound) {saved : Nat} (h : live.Holds saved) (name : String)
    {faults : DiskFaults} (hreads : faults.reads = false) :
    ∃ reopened : Live,
      (Blob.mount name : StepM RamDisk Partition).run { live.disk with faults := faults } =
        .ok reopened.partition reopened.disk ∧
      reopened.partition.databaseSize = saved ∧
      ∀ offset len, offset + len ≤ saved →
        (Blob.read reopened.partition .database offset len : StepM RamDisk Bytes).answer
            reopened.disk =
          .ok (live.disk.image.gather (blockSize + ·) offset len) := by
  obtain ⟨reopened, hrun, hpartition, himage, hworks⟩ := h.exists_reopened hsound name hreads
  have hsize : reopened.partition.databaseSize = saved := by rw [hpartition]
  refine ⟨reopened, hrun, hsize, fun offset len hin => ?_⟩
  have hanswer := @Sound.answer_read reopened (sound_of_mount hrun) hworks
    (journalSize_le_of_mount hrun) .database offset len (Nat.le_trans hin (Nat.le_of_eq hsize.symm))
  rw [himage] at hanswer
  exact hanswer

/-- After any run from an opened blob. No journal write, accepted or not, changes a byte that both
the size word and the database reach over. After a crash the database is as long as the size word
says, and all of it can be read as it is on the medium. A byte that the database reached over
whenever the journal was written is what it is without the journal's writes; and so are all of
them if the journal was not written while the size word promised more than the database had, and
the database did not grow over a gap. -/
theorem persisted_database_spared {name again : String} {disk : RamDisk} {start : Live}
    {faults : DiskFaults}
    (hopen : (Blob.mount name : StepM RamDisk Partition).run disk = .ok start.partition start.disk)
    (hreads : faults.reads = false) (actions : List Action) :
    let last := start.run actions
    (∀ offset data i, i < min last.persisted last.partition.databaseSize →
      (last.after (.write .journal offset data)).disk.image.byte (blockSize + i) =
        last.disk.image.byte (blockSize + i)) ∧
    (∃ reopened : Live,
      (Blob.mount again : StepM RamDisk Partition).run { last.disk with faults := faults } =
        .ok reopened.partition reopened.disk ∧
      reopened.partition.databaseSize = last.persisted ∧
      ∀ offset len, offset + len ≤ last.persisted →
        (Blob.read reopened.partition .database offset len : StepM RamDisk Bytes).answer
            reopened.disk =
          .ok (last.disk.image.gather (blockSize + ·) offset len)) ∧
    (∀ i, start.Meets (Covers i) actions →
      last.disk.image.byte (blockSize + i) = (start.unjournaled actions).byte (blockSize + i)) ∧
    (start.Meets Heeds actions → ∀ i < last.persisted,
      last.disk.image.byte (blockSize + i) =
        (start.unjournaled actions).byte (blockSize + i)) := by
  intro last
  have hsound := sound_of_mount hopen
  have hstart := holds_of_mount hopen
  have hlast : last.Sound := sound_run hsound actions
  have hholds : last.Holds last.persisted := by
    have hrun := holds_run hsound hstart actions
    rwa [← hrun.persisted_eq] at hrun
  refine ⟨fun offset data i hi => ?_, ?_, fun i => byte_unjournaled_run hsound,
    fun hheeds i hi => ?_⟩
  · exact (change_after hlast.block_le _).byte_journal hlast (by omega)
  · exact hholds.reopens hlast again hreads
  · refine agrees_run hsound (hstart.persisted_eq.symm ▸ hstart) hheeds _ ?_
    exact Nat.add_lt_add_left (Nat.lt_of_lt_of_le hi (Nat.le_max_left ..)) blockSize

theorem persisted_database_spared_beside_journal :
    ∃ reopened : Live,
      (Blob.mount "a" : StepM RamDisk Partition).run
          { (fresh.run [.write .journal 0 #[1, 2, 3, 4], .write .database 0 #[7],
            .sync .database 0]).disk with faults := .none } =
        .ok reopened.partition reopened.disk ∧
      reopened.partition.databaseSize = 1 ∧
      (Blob.read reopened.partition .database 0 1 : StepM RamDisk Bytes).answer reopened.disk =
        .ok #[7] := by
  have hjournal : fresh.after (.write .journal 0 #[1, 2, 3, 4]) = withJournal #[1, 2, 3, 4] :=
    after_of_run_ok (run_write_fresh (by decide) (by decide))
  have hguard : (withJournal #[1, 2, 3, 4]).partition.guardDatabaseWrite 0 1 = .ok () :=
    guardDatabaseWrite_eq_ok_iff.mpr (by decide)
  have hwrite := @run_write (withJournal #[1, 2, 3, 4]) .database 0 #[7] _ _
    (Blob.run_write_database (healthy_materialised.put _ _) hguard (by decide))
  obtain ⟨beside, hbeside⟩ : ∃ beside, (withJournal #[1, 2, 3, 4]).after (.write .database 0 #[7]) =
    beside := ⟨_, rfl⟩
  have hrun : fresh.run [.write .journal 0 #[1, 2, 3, 4], .write .database 0 #[7],
      .sync .database 0] = beside.after (.sync .database 0) := by
    rw [run_cons, run_cons, run_cons, run_nil, hjournal, hbeside]
  have hnext := hbeside.symm.trans (after_of_run_ok hwrite)
  have hsound : beside.Sound := by
    rw [← hbeside, ← hjournal]
    exact sound_after (sound_after sound_fresh _) _
  have hsize : beside.partition.databaseSize = 1 := by rw [hnext]; rfl
  have hhealthy : beside.disk.Healthy := by
    rw [hnext]
    exact (healthy_materialised.put _ _).put _ _
  have hpersisted := (synced_of_healthy hsound hhealthy 0).2.2.1.persisted_eq
  have hbyte : (fresh.unjournaled [.write .journal 0 #[1, 2, 3, 4], .write .database 0 #[7],
      .sync .database 0]).byte blockSize = 7 := by
    have hword : wordSize ≤ blockSize := by decide
    simp only [unjournaled, track, unjournaledAfter, hjournal, succeeds_of_run_ok hwrite, hbeside]
    split
    · rw [Image.byte_write, if_neg (by rw [Blob.size_sizeWord]; omega)]
      exact (Image.byte_write ..).trans (if_pos (by decide))
    · exact (Image.byte_write ..).trans (if_pos (by decide))
  obtain ⟨-, ⟨reopened, hreopen, hlength, hread⟩, -, hspared⟩ := @persisted_database_spared "a" "a"
    .growable fresh .none (Blob.run_mount_growable "a") rfl
    [.write .journal 0 #[1, 2, 3, 4], .write .database 0 #[7], .sync .database 0]
  have hheeds : fresh.Meets Heeds
      [.write .journal 0 #[1, 2, 3, 4], .write .database 0 #[7], .sync .database 0] :=
    ⟨Nat.le_of_eq (holds_of_mount (Blob.run_mount_growable "a")).persisted_eq,
      fun _ => Nat.zero_le _, trivial, trivial⟩
  have hfirst := hspared hheeds 0
  rw [hrun, hpersisted, hsize] at hlength hread hfirst
  refine ⟨reopened, hreopen, hlength, (hread 0 1 (Nat.le_refl 1)).trans ?_⟩
  rw [Image.gather_one, hfirst Nat.one_pos]
  exact congrArg (fun byte => Except.ok #[byte]) hbyte

/-! ## A database cut short -/

/-- The next opening finds a database of some length whose first byte is 2. -/
def Spoiled (live : Live) (saved : Nat) : Prop :=
  ∃ reopened : Live, (Blob.mount "a" : StepM RamDisk Partition).run live.disk =
      .ok reopened.partition reopened.disk ∧
    reopened.partition.databaseSize = saved ∧
    (Blob.read reopened.partition .database 0 1 : StepM RamDisk Bytes).answer reopened.disk =
      .ok #[2]

theorem Holds.spoiled (hsound : live.Sound) (hhealthy : live.disk.Healthy) {saved : Nat}
    (h : live.Holds saved) (hpos : 0 < saved) (htwo : live.disk.image.byte blockSize = 2) :
    live.Spoiled saved := by
  have hreads : live.disk.faults.reads = false := by
    rw [hhealthy.faults_eq]
    rfl
  obtain ⟨reopened, hrun, hsize, hread⟩ := h.reopens hsound "a" hreads
  refine ⟨reopened, hrun, hsize, (hread 0 1 (by omega)).trans ?_⟩
  rw [Image.gather_one]
  exact congrArg (fun byte => Except.ok #[byte]) htwo

theorem byte_put_twos (disk : RamDisk) :
    (disk.put (blockSize + 0) (.replicate 512 2)).image.byte blockSize = 2 := by
  have hsize : (Array.replicate 512 2 : Bytes).size = 512 := Array.size_replicate
  rw [put, Image.byte_write, if_pos (by omega), Nat.add_zero, Nat.sub_self]
  simp [Array.getD]

theorem spoiled_after_cut {disk : RamDisk} (hsound : (twoBlocks 0 0 disk).Sound)
    (hhealthy : disk.Healthy) :
    let cut := (twoBlocks 0 0 disk).run
      [.write .database 0 #[1], .sync .database 0, .truncate .database 0]
    let spoiled := cut.after (.write .journal 0 (.replicate 512 2))
    cut.persisted = 1 ∧ cut.disk.image.byte blockSize = 1 ∧
      cut.succeeds (.write .journal 0 (.replicate 512 2)) = true ∧
      spoiled.disk.image.byte blockSize = 2 ∧ spoiled.Spoiled 1 := by
  intro cut spoiled
  have hwrite := run_write_one hhealthy (Nat.zero_le 1)
  have hwritten := sound_after hsound (.write .database 0 #[1])
  rw [after_of_run_ok hwrite] at hwritten
  obtain ⟨hpartition, hsynced, hholds, hbyte⟩ :=
    synced_of_healthy hwritten (hhealthy.put (blockSize + 0) #[1]) 0
  generalize hnext : (twoBlocks 1 0 (disk.put (blockSize + 0) #[1])).after (.sync .database 0) =
    synced at hpartition hsynced hholds hbyte
  have hcut : cut = twoBlocks 0 0 synced.disk := by
    simp only [cut, run_cons, run_nil, after_of_run_ok hwrite, hnext,
      after_of_run_ok (run_truncate ..), hpartition]
    rfl
  have hjournal := run_write_twos hsynced (show 0 < 512 by decide) (Nat.le_refl _) (Nat.le_refl 0)
  have hspoiled : spoiled =
      twoBlocks 0 512 (synced.disk.put (blockSize + 0) (.replicate 512 2)) := by
    rw [← after_of_run_ok hjournal, ← hcut]
  have hlast : spoiled.Sound := sound_after (sound_run hsound _) _
  have hroom : 1 + blockSize ≤ 2 * blockSize := by decide
  have hone : cut.Holds 1 := ⟨hcut ▸ hholds.word, hcut ▸ hroom⟩
  have hstill : spoiled.Holds 1 :=
    holds_after (sound_run hsound _) hone (.write .journal 0 (.replicate 512 2))
  have htwo : spoiled.disk.image.byte blockSize = 2 := by rw [hspoiled]; exact byte_put_twos _
  refine ⟨hone.persisted_eq, ?_, ?_, htwo, ?_⟩
  · rw [hcut]
    refine (hbyte blockSize (Nat.le_refl _)).trans ?_
    exact (Image.byte_write ..).trans (if_pos (by decide))
  · rw [hcut]
    exact succeeds_of_run_ok hjournal
  · exact hstill.spoiled hlast (hspoiled ▸ hsynced.put (blockSize + 0) (.replicate 512 2))
      Nat.one_pos htwo

theorem spoiled_over_gap {disk : RamDisk} (hsound : (twoBlocks 0 0 disk).Sound)
    (hhealthy : disk.Healthy) :
    ((twoBlocks 0 0 disk).run [.write .journal 0 (.replicate 512 2), .truncate .journal 0,
      .write .database 1 #[1], .sync .database 0]).Spoiled 2 := by
  have hjournal := run_write_twos hhealthy (show 0 < 512 by decide) (Nat.le_refl _) (Nat.le_refl 0)
  have hwrite := run_write_one (hhealthy.put (blockSize + 0) (.replicate 512 2)) (Nat.le_refl 1)
  have hwritten := sound_run hsound [.write .journal 0 (.replicate 512 2), .truncate .journal 0,
    .write .database 1 #[1]]
  have hrun : (twoBlocks 0 0 disk).run [.write .journal 0 (.replicate 512 2), .truncate .journal 0,
      .write .database 1 #[1]] =
        twoBlocks 2 0 ((disk.put (blockSize + 0) (.replicate 512 2)).put (blockSize + 1) #[1]) := by
    rw [run_cons, run_cons, run_cons, run_nil, after_of_run_ok hjournal,
      after_of_run_ok (run_truncate ..)]
    exact after_of_run_ok hwrite
  rw [hrun] at hwritten
  obtain ⟨-, hsynced, hholds, hbyte⟩ := synced_of_healthy hwritten
    ((hhealthy.put (blockSize + 0) (.replicate 512 2)).put (blockSize + 1) #[1]) 0
  have hlast := run_append (twoBlocks 0 0 disk)
    [.write .journal 0 (.replicate 512 2), .truncate .journal 0, .write .database 1 #[1]]
    [.sync .database 0]
  rw [hrun, run_cons, run_nil, List.cons_append, List.cons_append, List.cons_append,
    List.nil_append] at hlast
  rw [hlast]
  refine hholds.spoiled (sound_after hwritten _) hsynced Nat.two_pos ?_
  rw [hbyte blockSize (Nat.le_refl _)]
  refine (Image.byte_write ..).trans ((if_neg (by decide)).trans ?_)
  exact byte_put_twos disk

/-- On a medium of two blocks a journal write is accepted over a synced database that was cut to
nothing since, and the next opening finds the journal's bytes in it. It finds some in a database
that grew over a gap, too. -/
theorem journal_write_spoils_persisted :
    ∃ start : Live, (Blob.mount "a" : StepM RamDisk Partition).run (.zeroed (2 * blockSize)) =
        .ok start.partition start.disk ∧
      (let cut := start.run [.write .database 0 #[1], .sync .database 0, .truncate .database 0]
        let spoiled := cut.after (.write .journal 0 (.replicate 512 2))
        cut.persisted = 1 ∧ cut.disk.image.byte blockSize = 1 ∧
          cut.succeeds (.write .journal 0 (.replicate 512 2)) = true ∧
          spoiled.disk.image.byte blockSize = 2 ∧ spoiled.Spoiled 1) ∧
      (start.run [.write .journal 0 (.replicate 512 2), .truncate .journal 0,
        .write .database 1 #[1], .sync .database 0]).Spoiled 2 := by
  obtain ⟨disk, hopen, hhealthy⟩ := exists_mount_two_blocks
  exact ⟨twoBlocks 0 0 disk, hopen, spoiled_after_cut (sound_of_mount hopen) hhealthy,
    spoiled_over_gap (sound_of_mount hopen) hhealthy⟩

end Live

end TwinRegion
