/-
TwinRegion.Proofs.Discipline — regions that stay apart in whole blocks.

A journal is written with discipline when every write starts inside the
journal, right at its end, or at the start of a block. The guard of a
journal write looks only at where each run starts; under the discipline the
block of the last run either starts with that run or was the journal's
before (`Tiles.exists_last`), so the guard speaks for whole blocks. That is
the invariant `Apart`, and from it a write over bytes that the database
already has is never refused for want of room (`database_never_full`).
-/
import TwinRegion.Proofs.Accepting

namespace TwinRegion

open TwinRegion.Partition RamDisk

/-- The last run of a request starts the request or a block, and lies in the block of the last
byte. -/
theorem Partition.Tiles.exists_last {capacity logical start : Nat} {runs : List Extent}
    (h : Tiles capacity logical start runs) (hne : runs ≠ []) :
    ∃ last, last / blockSize = (logical + span runs - 1) / blockSize ∧
      (last = logical ∨ last % blockSize = 0) ∧
      ∃ run, runs.getLast? = some run ∧ run.address = place capacity last := by
  induction h with
  | nil => exact absurd rfl hne
  | @cons logical start len rest hpos hblock hfull _ ih =>
    by_cases hrest : rest = []
    · subst hrest
      refine ⟨logical, ?_, .inl rfl, _, rfl, rfl⟩
      simp only [span_cons, span_nil]
      unfold blockSize at *
      omega
    · obtain ⟨last, hlast, hstart, run, hrun, haddress⟩ := ih hrest
      refine ⟨last, ?_, .inr ?_, run, ?_, haddress⟩
      · rw [hlast, span_cons, Nat.add_assoc]
      · have hlen := hfull hrest
        unfold blockSize at *
        omega
      · rw [List.getLast?_cons, hrun, Option.getD_some]

namespace Live

/-- The discipline: a journal write is not empty and starts inside the journal, at its
end, or at the start of a block. -/
def Follows (live : Live) : Action → Prop
  | .write .journal offset data =>
    0 < data.size ∧ (offset ≤ live.partition.journalSize ∨ offset % blockSize = 0)
  | _ => True

/-- Every journal write of a run follows the discipline when its turn comes. -/
def Disciplined (live : Live) : List Action → Prop
  | [] => True
  | action :: rest => live.Follows action ∧ (live.after action).Disciplined rest

/-- The header, the database and the journal's blocks fit into the blob side by side. -/
def Apart (live : Live) : Prop :=
  blockSize + live.partition.databaseSize + blockSize * blocksFor live.partition.journalSize ≤
    live.partition.capacity

theorem Disciplined.of_append {live : Live} {actions more : List Action}
    (h : live.Disciplined (actions ++ more)) : live.Disciplined actions := by
  induction actions generalizing live with
  | nil => trivial
  | cons action rest ih => exact ⟨h.1, ih h.2⟩

/-! ## Steps -/

/-- A shorter journal takes no more blocks. -/
theorem blocksFor_mono {m n : Nat} (h : m ≤ n) : blocksFor m ≤ blocksFor n :=
  Nat.div_le_div_right (by omega)

/-- A header block, the database and `extent` of the journal's length fit into the blob. -/
def Fits (live : Live) (extent : Nat → Nat) : Prop :=
  blockSize + live.partition.databaseSize + extent live.partition.journalSize ≤
    live.partition.capacity

/-- The lengths go on to fit, unless a journal write is accepted that ends too far. The guard of a
database write sees to it, as far as the extent is one of whole blocks at most. -/
theorem Change.fits_iff {live next : Live} {action : Action} {ok : Bool} {extent : Nat → Nat}
    (hmono : ∀ {m n}, m ≤ n → extent m ≤ extent n) (hblocks : ∀ n, extent n ≤ blockSize * blocksFor n)
    (h : live.Fits extent) (hchange : Change live action ok next) :
    next.Fits extent ↔ ∀ offset data, action = .write .journal offset data → ok = true →
      blockSize + live.partition.databaseSize + extent (offset + data.size) ≤
        live.partition.capacity := by
  unfold Fits at h ⊢
  cases hchange with
  | @journalWritten offset data _ hall hstop hdisk =>
    dsimp only
    constructor
    · rintro hfits _ _ ⟨⟩ -
      have := hmono (Nat.le_max_right live.partition.journalSize (offset + data.size))
      omega
    · intro hroom
      have := hroom _ _ rfl rfl
      rcases Nat.le_total live.partition.journalSize (offset + data.size) with hle | hle
      · rwa [Nat.max_eq_right hle]
      · rwa [Nat.max_eq_left hle]
  | journalCut hdisk =>
    constructor
    · rintro _ _ _ - ⟨⟩
    · exact fun _ => h
  | databaseWritten hguard hdisk =>
    refine ⟨fun _ _ _ h => (by cases h), fun _ => ?_⟩
    obtain ⟨-, -, hroom, -, -⟩ := guardDatabaseWrite_eq_ok_iff.mp hguard
    have := hblocks live.partition.journalSize
    unfold reserve at hroom
    dsimp only
    omega
  | @truncated region size =>
    refine ⟨fun _ _ _ h => (by cases h), fun _ => ?_⟩
    cases region with
    | database =>
      have := Nat.min_le_left live.partition.databaseSize size
      simp only [Blob.truncate]
      omega
    | journal =>
      have := hmono (Nat.min_le_left live.partition.journalSize size)
      simp only [Blob.truncate]
      omega
  | erased htakes hdisk =>
    refine ⟨fun _ _ _ h => (by cases h), fun _ => ?_⟩
    have := hmono (Nat.zero_le live.partition.journalSize)
    dsimp only
    omega
  | _ => exact ⟨fun _ _ _ h => (by cases h), fun _ => h⟩

/-- Only a journal write that is accepted can take the journal's blocks too far. -/
theorem Change.apart_iff {live next : Live} {action : Action} {ok : Bool} (h : live.Apart)
    (hchange : Change live action ok next) :
    next.Apart ↔ ∀ offset data, action = .write .journal offset data → ok = true →
      blockSize + live.partition.databaseSize + blockSize * blocksFor (offset + data.size) ≤
        live.partition.capacity :=
  hchange.fits_iff (fun hle => Nat.mul_le_mul_left blockSize (blocksFor_mono hle))
    (fun _ => Nat.le_refl _) h

/-- There is room for the blocks of a journal write that follows the discipline and is accepted. -/
theorem room_of_journalWritten {live : Live} {offset : Nat} {data : Bytes} (h : live.Apart)
    (hblock : blockSize ≤ live.partition.capacity)
    (hfollows : live.Follows (.write .journal offset data))
    (hall : Blob.storedRuns live.partition offset data live.disk =
      (live.partition.extents offset data.size).runs)
    (hstop : (live.partition.extents offset data.size).stop = none) :
    blockSize + live.partition.databaseSize + blockSize * blocksFor (offset + data.size) ≤
      live.partition.capacity := by
  obtain ⟨hpos, hstart⟩ := hfollows
  have htiles := tiles_extentsFrom live.partition.capacity offset data.size 0
  have hspan := span_extentsFrom hstop
  have hne : (live.partition.extents offset data.size).runs ≠ [] := by
    intro hnil
    rw [extents] at hnil
    rw [hnil, span_nil] at hspan
    omega
  obtain ⟨last, hlast, haligned, run, hrun, haddress⟩ := htiles.exists_last hne
  have hlow := (Blob.storedRuns_bounds hblock (hall ▸ List.mem_of_getLast? hrun)).1
  rw [hspan] at hlast
  rw [haddress] at hlow
  -- the block of the last byte starts at a run that passed the guard, or the journal had it
  unfold Apart blocksFor place blockSize at *
  omega

theorem Change.apart {live next : Live} {action : Action} {ok : Bool} (hsound : live.Sound)
    (hfollows : live.Follows action) (h : live.Apart) (hchange : Change live action ok next) :
    next.Apart := by
  refine (hchange.apart_iff h).mpr ?_
  rintro offset data rfl rfl
  cases hchange with
  | journalWritten hall hstop hdisk =>
    exact room_of_journalWritten h hsound.block_le hfollows hall hstop

/-! ## Runs -/

theorem apart_run {live : Live} (hsound : live.Sound) (h : live.Apart) {actions : List Action}
    (hdiscipline : live.Disciplined actions) : (live.run actions).Apart := by
  induction actions generalizing live with
  | nil => exact h
  | cons action rest ih =>
    obtain ⟨hfollows, hrest⟩ := hdiscipline
    have hchange := change_after hsound.block_le action
    exact ih (hchange.sound hsound) (hchange.apart hsound hfollows h) hrest

/-- A sound blob without a journal has its regions apart. -/
theorem Sound.apart {live : Live} (h : live.Sound) (hnone : live.partition.journalSize = 0) :
    live.Apart := by
  have hblocks : blocksFor 0 = 0 := by decide
  have hfits := h.fits
  rw [Apart, hnone, hblocks]
  omega

/-- Where the regions are apart, the database may be written over. -/
theorem Apart.guardDatabaseWrite {live : Live} (hsound : live.Sound) (h : live.Apart)
    (hmodest : live.Modest) {offset len : Nat}
    (hin : offset + len ≤ live.partition.databaseSize) :
    live.partition.guardDatabaseWrite offset len = .ok () := by
  have hcapacity := hsound.capacity_lt
  have hjournal : live.partition.journalSize ≤ blockSize * blocksFor live.partition.journalSize := by
    unfold blocksFor blockSize
    omega
  unfold Apart at h
  refine (guardDatabaseWrite_within_iff hcapacity hmodest hin).mpr ⟨?_, ?_⟩
  · exact Word.lt_limit_of_lt_half (by omega)
  · unfold reserve
    omega

/-- From an opening that found no journal, under the discipline: the regions stay apart in
whole blocks, and if the database started below its ceiling then no write over bytes that it
has is refused for want of room. -/
theorem database_never_full {name : String} {disk : RamDisk} {start : Live}
    (hopen : (Blob.mount name : StepM RamDisk Partition).run disk = .ok start.partition start.disk)
    (hnone : start.partition.journalSize = 0) {actions : List Action}
    (hdiscipline : start.Disciplined actions) :
    (start.run actions).Apart ∧
      (start.Modest → ∀ offset len, offset + len ≤ (start.run actions).partition.databaseSize →
        (start.run actions).partition.guardDatabaseWrite offset len = .ok () ∧
        ∀ data : Bytes, data.size = len → ∀ region place count,
          (Blob.write (start.run actions).partition .database offset data :
              StepM RamDisk Partition).answer (start.run actions).disk ≠
            .error (.refused (.noRoom region place count))) := by
  have hsound := sound_of_mount hopen
  have hlast := sound_run hsound actions
  have hapart := apart_run hsound (hsound.apart hnone) hdiscipline
  refine ⟨hapart, fun hmodest offset len hin => ?_⟩
  have hguard := hapart.guardDatabaseWrite hlast (modest_run hsound hmodest actions) hin
  refine ⟨hguard, ?_⟩
  rintro data rfl region place count hanswer
  have hends := Blob.ends_write_database (start.run actions).partition offset data
    (start.run actions).disk
  exact (hends.failure _ hanswer).2 hguard region place count rfl

theorem database_never_full_beside_journal :
    fresh.Disciplined [.write .journal 0 #[1, 2, 3, 4], .write .database 0 #[7]] ∧
      (fresh.run [.write .journal 0 #[1, 2, 3, 4], .write .database 0 #[7]]).Apart ∧
      (fresh.run [.write .journal 0 #[1, 2, 3, 4],
        .write .database 0 #[7]]).partition.guardDatabaseWrite 0 1 = .ok () := by
  have hdiscipline : fresh.Disciplined [.write .journal 0 #[1, 2, 3, 4], .write .database 0 #[7]] :=
    ⟨⟨by decide, .inl (Nat.zero_le _)⟩, trivial, trivial⟩
  have hguard : (withJournal #[1, 2, 3, 4]).partition.guardDatabaseWrite 0 1 = .ok () :=
    guardDatabaseWrite_eq_ok_iff.mpr (by decide)
  have hwrite := @run_write (withJournal #[1, 2, 3, 4]) .database 0 #[7] _ _
    (Blob.run_write_database (healthy_materialised.put _ _) hguard (by decide))
  have hsize : (fresh.run [.write .journal 0 #[1, 2, 3, 4],
      .write .database 0 #[7]]).partition.databaseSize = 1 := by
    rw [run_cons, after_of_run_ok (run_write_fresh (by decide) (by decide)), run_cons,
      after_of_run_ok hwrite, run_nil]
    rfl
  obtain ⟨hapart, hfree⟩ := @database_never_full "a" .growable fresh
    (Blob.run_mount_growable "a") rfl _ hdiscipline
  have hmodest : fresh.Modest := Nat.zero_le _
  have hin : 0 + 1 ≤ (fresh.run [.write .journal 0 #[1, 2, 3, 4],
      .write .database 0 #[7]]).partition.databaseSize := Nat.le_of_eq hsize.symm
  exact ⟨hdiscipline, hapart, (hfree hmodest 0 1 hin).1⟩

end Live

end TwinRegion
