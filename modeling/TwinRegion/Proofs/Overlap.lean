/-
TwinRegion.Proofs.Overlap — how the regions come to overlap.

The guard of a journal write looks at where each run starts, and the journal
then reaches to the end of the request. So a write that starts inside a
block, or that is empty, can make the journal longer than there is room for:
the lengths add up to more than the blob (not `Spaced`), or a read of the
journal gets to bytes of the header or of the database (not `Clear`). Nothing
but an accepted journal write does that, and which ones do is a matter of
their end alone (`Change.fits_iff`, `regions_clear_iff`); under the
discipline none does.
-/
import TwinRegion.Proofs.Discipline
import TwinRegion.Proofs.Erasure

namespace TwinRegion

open TwinRegion.Partition RamDisk StepM

namespace Live

variable {live : Live}

/-- The lengths of the header, the database and the journal add up to no more than the blob. -/
def Spaced (live : Live) : Prop :=
  live.partition.databaseSize + blockSize + live.partition.journalSize ≤ live.partition.capacity

/-- No read of the journal that is admitted comes to a byte of the header or of the database. -/
def Clear (live : Live) : Prop :=
  ∀ offset len, live.partition.guardRead .journal offset len = .ok () →
    ∀ p, offset ≤ p → p < offset + len →
      blockSize + live.partition.databaseSize ≤ place live.partition.capacity p

/-- Reads of the journal stay clear of the database exactly if the blocks of the two do. -/
theorem Sound.clear_iff_apart (h : live.Sound) : live.Clear ↔ live.Apart := by
  have hsmall := h.capacity_lt
  have hfits := h.fits
  have hlong := h.long
  constructor
  · intro hclear
    have hread : ∀ p, p < live.partition.journalSize → p ≤ live.partition.capacity →
        blockSize + live.partition.databaseSize ≤ place live.partition.capacity p := by
      intro p hp hcapacity
      refine hclear p 1 (guardRead_eq_ok_iff.mpr ⟨?_, hp⟩) p (Nat.le_refl p) (Nat.lt_succ_self p)
      exact Word.lt_limit_of_lt_half (by omega)
    -- a journal longer than the blob has bytes in the header block
    have hle : live.partition.journalSize ≤ live.partition.capacity := by
      refine Nat.le_of_not_lt fun hlt => ?_
      have hplace := hread live.partition.capacity hlt (Nat.le_refl _)
      unfold place blockSize at hplace
      omega
    -- the lowest block of the journal starts at the place of its first byte
    unfold Apart
    by_cases hnone : live.partition.journalSize = 0
    · rw [hnone, show blocksFor 0 = 0 by decide]
      omega
    · have hplace := hread (blockSize * (blocksFor live.partition.journalSize - 1))
        (by unfold blocksFor blockSize; omega) (by unfold blocksFor blockSize; omega)
      unfold place blocksFor blockSize at *
      omega
  · intro hapart offset len hguard p hle hlt
    have hin := (guardRead_eq_ok_iff.mp hguard).2
    simp only [regionSize] at hin
    unfold Apart blocksFor at hapart
    unfold place blockSize at *
    omega

/-- A journal's blocks have its bytes in them. -/
theorem le_blocks (n : Nat) : n ≤ blockSize * blocksFor n := by
  unfold blocksFor blockSize
  omega

theorem Apart.spaced (h : live.Apart) : live.Spaced := by
  have hbytes := le_blocks live.partition.journalSize
  unfold Apart at h
  unfold Spaced
  omega

/-! ## Runs -/

/-- The lengths fit throughout a run exactly if every journal write that is accepted ends where
there is still room. -/
theorem fits_throughout_iff {extent : Nat → Nat} (hmono : ∀ {m n}, m ≤ n → extent m ≤ extent n)
    (hblocks : ∀ n, extent n ≤ blockSize * blocksFor n) (hsound : live.Sound)
    (hstart : live.Fits extent) (actions : List Action) :
    (∀ before, before <+: actions → (live.run before).Fits extent) ↔
      ∀ before offset data rest, actions = before ++ .write .journal offset data :: rest →
        (live.run before).succeeds (.write .journal offset data) = true →
        blockSize + (live.run before).partition.databaseSize + extent (offset + data.size) ≤
          (live.run before).partition.capacity := by
  refine (throughout_iff (P := fun live : Live => live.Fits extent)
    (fun _ action hsound _ _ => sound_after hsound action)
    (fun _ action hsound h => (change_after hsound.block_le action).fits_iff hmono hblocks h)
    hsound hstart actions).trans ?_
  constructor
  · intro hmet before offset data rest hactions
    exact hmet before _ rest hactions offset data rfl
  · rintro hmet before action rest hactions offset data rfl
    exact hmet before offset data rest hactions

theorem spaced_iff_fits : live.Spaced ↔ live.Fits fun n => n := by
  unfold Spaced Fits
  dsimp only
  omega

/-- From an opening that found no journal: the lengths keep adding up to no more than the blob
exactly as long as every journal write that is accepted ends where there is still room for its
bytes, and reads of the journal stay clear of the header and the database exactly as long as there
is still room for its blocks. Under the discipline both are so. -/
theorem regions_clear_iff {name : String} {disk : RamDisk} {start : Live}
    (hopen : (Blob.mount name : StepM RamDisk Partition).run disk = .ok start.partition start.disk)
    (hnone : start.partition.journalSize = 0) (actions : List Action) :
    ((∀ before, before <+: actions → (start.run before).Spaced) ↔
      ∀ before offset data rest, actions = before ++ .write .journal offset data :: rest →
        (start.run before).succeeds (.write .journal offset data) = true →
        blockSize + (start.run before).partition.databaseSize + (offset + data.size) ≤
          (start.run before).partition.capacity) ∧
    ((∀ before, before <+: actions → (start.run before).Clear) ↔
      ∀ before offset data rest, actions = before ++ .write .journal offset data :: rest →
        (start.run before).succeeds (.write .journal offset data) = true →
        blockSize + (start.run before).partition.databaseSize +
          blockSize * blocksFor (offset + data.size) ≤ (start.run before).partition.capacity) ∧
    (start.Disciplined actions → ∀ before, before <+: actions →
      (start.run before).Spaced ∧ (start.run before).Clear) := by
  have hsound := sound_of_mount hopen
  have hapart := hsound.apart hnone
  refine ⟨?_, ?_, fun hdiscipline before hbefore => ?_⟩
  · simp only [spaced_iff_fits]
    refine fits_throughout_iff id le_blocks hsound ?_ actions
    have hfits := hsound.fits
    rw [Fits, hnone]
    omega
  · have hclear : ∀ before, (start.run before).Clear ↔
        (start.run before).Fits fun n => blockSize * blocksFor n :=
      fun before => (sound_run hsound before).clear_iff_apart
    simp only [hclear]
    exact fits_throughout_iff (fun hle => Nat.mul_le_mul_left blockSize (blocksFor_mono hle))
      (fun _ => Nat.le_refl _) hsound hapart actions
  · obtain ⟨rest, rfl⟩ := hbefore
    have hlast := apart_run hsound hapart hdiscipline.of_append
    exact ⟨hlast.spaced, (sound_run hsound before).clear_iff_apart.mpr hlast⟩

theorem regions_clear_first_journal :
    (fresh.run [.write .journal 0 #[1, 2, 3, 4], .write .database 0 #[7]]).Spaced ∧
      (fresh.run [.write .journal 0 #[1, 2, 3, 4], .write .database 0 #[7]]).Clear :=
  (@regions_clear_iff "a" .growable fresh (Blob.run_mount_growable "a") rfl
    [.write .journal 0 #[1, 2, 3, 4], .write .database 0 #[7]]).2.2
    ⟨⟨by decide, .inl (Nat.zero_le _)⟩, trivial, trivial⟩ _ (List.prefix_refl _)

/-- On a medium of two blocks a journal write of 511 bytes that leaves out the first byte of its
block is accepted beside a database of one byte, and that byte is then the first of the journal. -/
theorem journal_write_meets_database :
    ∃ start : Live, (Blob.mount "a" : StepM RamDisk Partition).run (.zeroed (2 * blockSize)) =
        .ok start.partition start.disk ∧ start.partition.journalSize = 0 ∧
      let written := start.run [.write .database 0 #[1]]
      let last := written.after (.write .journal 1 (.replicate 511 2))
      written.succeeds (.write .journal 1 (.replicate 511 2)) = true ∧
        ¬ last.Spaced ∧ ¬ last.Clear ∧
        (Blob.read last.partition .journal 0 1 : StepM RamDisk Bytes).answer last.disk =
          .ok #[1] := by
  obtain ⟨disk, hopen, hhealthy⟩ := exists_mount_two_blocks
  refine ⟨twoBlocks 0 0 disk, hopen, rfl, ?_⟩
  intro written last
  have hwritten : written = twoBlocks 1 0 (disk.put blockSize #[1]) := by
    rw [show written = (twoBlocks 0 0 disk).after (.write .database 0 #[1]) from rfl]
    exact after_of_run_ok (run_write_one hhealthy (Nat.zero_le 1))
  have hjournal := run_write_twos (hhealthy.put blockSize #[1]) (show 0 < 511 by decide)
    (show 1 + 511 ≤ blockSize by decide) (Nat.le_refl 1)
  rw [← hwritten] at hjournal
  let full := twoBlocks 1 512 ((disk.put blockSize #[1]).put (blockSize + 1) (.replicate 511 2))
  have hlast : last = full := after_of_run_ok hjournal
  have hsound : full.Sound := by
    rw [← hlast]
    exact sound_after (sound_run (sound_of_mount hopen) [.write .database 0 #[1]]) _
  rw [hlast]
  refine ⟨succeeds_of_run_ok hjournal, ?_, ?_, ?_⟩
  · show ¬ 1 + blockSize + 512 ≤ 2 * blockSize
    decide
  · rw [hsound.clear_iff_apart]
    show ¬ blockSize + 1 + blockSize * blocksFor 512 ≤ 2 * blockSize
    decide
  · have hfaults : full.disk.faults = .none := ((hhealthy.put _ _).put _ _).faults_eq
    have hworks : full.disk.faults.reads = false := congrArg DiskFaults.reads hfaults
    have hbyte : full.disk.image.byte (place (2 * blockSize) 0) = 1 := by
      have hplace : place (2 * blockSize) 0 = blockSize := by decide
      rw [hplace]
      refine (Image.byte_write ..).trans ((if_neg (by omega)).trans ?_)
      exact (Image.byte_write ..).trans (if_pos (by decide))
    have hread := @Sound.answer_read full hsound hworks (show 512 ≤ 2 * blockSize by decide)
      .journal 0 1 (show 0 + 1 ≤ 512 by decide)
    rw [Image.gather_one] at hread
    exact hread.trans (congrArg (fun byte => Except.ok #[byte]) hbyte)

end Live

end TwinRegion
