/-
TwinRegion.Proofs.Address — where the bytes of the two regions live.

`Partition.place` is the journal's address map without its overflow checks:
what `journalAddress` gives when it gives anything (`journalAddress_eq`).
A logical byte is housed when its whole block lies in the blob. On housed
bytes the map is injective (`place_inj`), inside one block it keeps the
order (`place_add`), and a byte that is not housed is sent to the header
(`housed_of_le_place`), which is why no write gets there.

The reserve of a journal covers the places of all its housed bytes
(`reserve_le_place`), so a database write that respects the reserve stays
below them.
-/
import TwinRegion.Partition.Extent
import TwinRegion.Proofs.Outcome

namespace TwinRegion.Partition

/-- The place of a logical journal byte, in unbounded arithmetic. -/
def place (capacity logical : Nat) : Nat :=
  capacity - blockSize * (logical / blockSize + 1) + logical % blockSize

/-- The block of a logical journal byte lies in the blob. -/
def Housed (capacity logical : Nat) : Prop := blockSize * (logical / blockSize + 1) ≤ capacity

/-- The place of a byte of either region. -/
def address (capacity : Nat) : Region → Nat → Nat
  | .database, offset => blockSize + offset
  | .journal, logical => place capacity logical

/-! ## The map inside one block -/

theorem place_add {capacity logical i : Nat} (h : i < blockSize - logical % blockSize) :
    place capacity (logical + i) = place capacity logical + i := by
  unfold place blockSize at *
  have hdiv : (logical + i) / 512 = logical / 512 := by omega
  rw [hdiv]
  omega

theorem housed_add {capacity logical i : Nat} (h : i < blockSize - logical % blockSize) :
    Housed capacity (logical + i) ↔ Housed capacity logical := by
  unfold Housed blockSize at *
  have hdiv : (logical + i) / 512 = logical / 512 := by omega
  rw [hdiv]

/-- What is placed above the header is housed. -/
theorem housed_of_le_place {capacity logical : Nat} (h : blockSize ≤ place capacity logical) :
    Housed capacity logical := by
  unfold place Housed blockSize at *
  omega

/-- A run that stays in its block and is housed ends inside the blob. -/
theorem Housed.place_add_le {capacity logical len : Nat} (h : Housed capacity logical)
    (hlen : len ≤ blockSize - logical % blockSize) : place capacity logical + len ≤ capacity := by
  unfold place Housed blockSize at *
  omega

/-- Even a run that is not housed ends inside a blob of at least one block. -/
theorem place_add_le {capacity logical len : Nat} (hcap : blockSize ≤ capacity)
    (hlen : len ≤ blockSize - logical % blockSize) : place capacity logical + len ≤ capacity := by
  by_cases h : Housed capacity logical
  · exact h.place_add_le hlen
  · unfold place Housed blockSize at *
    omega

theorem place_inj {capacity p q : Nat} (hp : Housed capacity p) (hq : Housed capacity q)
    (h : place capacity p = place capacity q) : p = q := by
  unfold place Housed blockSize at *
  omega

/-- The places of a housed run that stays in its block are the places of its bytes. -/
theorem place_mem_run_iff {capacity logical len p : Nat} (hl : Housed capacity logical)
    (hlen : len ≤ blockSize - logical % blockSize) (hp : Housed capacity p) :
    (place capacity logical ≤ place capacity p ∧ place capacity p < place capacity logical + len) ↔
      (logical ≤ p ∧ p < logical + len) := by
  constructor
  · rintro ⟨hle, hlt⟩
    have hi : place capacity p - place capacity logical < blockSize - logical % blockSize := by omega
    have hplace : place capacity (logical + _) = _ := place_add hi
    have hhoused : Housed capacity (logical + _) := (housed_add hi).mpr hl
    have : logical + (place capacity p - place capacity logical) = p :=
      place_inj hhoused hp (by omega)
    omega
  · rintro ⟨hle, hlt⟩
    have hplace := @place_add capacity logical (p - logical) (by omega)
    rw [Nat.add_sub_cancel' hle] at hplace
    omega

/-! ## The checked map -/

/-- Where the checked map gives a place, it is this one. -/
theorem journalAddress_eq {capacity logical value : Nat}
    (h : journalAddress capacity logical = .ok value) : value = place capacity logical := by
  simp only [journalAddress, bind_eq_ok_iff, Word.add_eq_ok_iff, Word.mul_eq_ok_iff] at h
  obtain ⟨next, ⟨-, rfl⟩, below, ⟨-, rfl⟩, -, rfl⟩ := h
  rfl

/-- No place overflows when the blob and the blocks of the journal have 64-bit lengths. -/
theorem journalAddress_of_lt_limit {capacity logical : Nat} (hcap : capacity ≤ Word.limit)
    (hlog : logical + blockSize < Word.limit) :
    journalAddress capacity logical = .ok (place capacity logical) := by
  simp only [journalAddress, bind_eq_ok_iff, Word.add_eq_ok_iff, Word.mul_eq_ok_iff]
  refine ⟨_, ⟨?_, rfl⟩, _, ⟨?_, rfl⟩, ?_, rfl⟩ <;> simp only [Word.limit, blockSize] at * <;> omega

/-- No place overflows when the blob and the journal fit into memory. -/
theorem journalAddress_of_lt {capacity logical : Nat} (hcap : capacity ≤ 1 <<< 63)
    (hlog : logical < 1 <<< 63) : journalAddress capacity logical = .ok (place capacity logical) := by
  apply journalAddress_of_lt_limit <;> simp only [Word.limit, blockSize] <;> omega

/-! ## The journal's reserve -/

/-- The blocks that `size` bytes take, the last perhaps in part. -/
def blocksFor (size : Nat) : Nat := (size + blockSize - 1) / blockSize

/-- The bytes that a journal keeps for itself, in unbounded arithmetic. -/
def reserve (partition : Partition) : Nat :=
  min (blockSize * blocksFor partition.journalSize) partition.capacity

theorem journalReserve_eq_ok_iff {partition : Partition} {value : Nat} :
    partition.journalReserve = .ok value ↔
      partition.journalSize + blockSize < Word.limit ∧ value = partition.reserve := by
  simp only [journalReserve, bind_eq_ok_iff, Word.add_eq_ok_iff, Word.sub_eq_ok_iff,
    Word.mul_eq_ok_iff, pure, Except.pure, Except.ok.injEq]
  constructor
  · rintro ⟨sum, ⟨hsum, rfl⟩, rounded, ⟨-, rfl⟩, whole, ⟨-, rfl⟩, rfl⟩
    exact ⟨hsum, by rw [reserve, blocksFor, Nat.mul_comm]⟩
  · rintro ⟨hsum, rfl⟩
    refine ⟨_, ⟨hsum, rfl⟩, _, ⟨?_, rfl⟩, _, ⟨?_, rfl⟩, by rw [reserve, blocksFor, Nat.mul_comm]⟩
    · simp only [blockSize]; omega
    · simp only [Word.limit, blockSize] at *; omega

/-- The reserve starts at or below the place of every housed byte of the journal. -/
theorem reserve_le_place {partition : Partition} {p : Nat} (hp : p < partition.journalSize)
    (hh : Housed partition.capacity p) :
    partition.capacity - partition.reserve ≤ place partition.capacity p := by
  unfold reserve blocksFor place Housed blockSize at *
  omega

/-! ## Admission -/

theorem guardRead_eq_ok_iff {partition : Partition} {region : Region} {offset len : Nat} :
    partition.guardRead region offset len = .ok () ↔
      offset + len < Word.limit ∧ offset + len ≤ partition.regionSize region := by
  simp only [guardRead, bind_eq_ok_iff, Word.add_eq_ok_iff, refuse_if_eq_ok_iff]
  constructor
  · rintro ⟨stop, ⟨hlim, rfl⟩, hle⟩
    exact ⟨hlim, by omega⟩
  · rintro ⟨hlim, hle⟩
    exact ⟨_, ⟨hlim, rfl⟩, by omega⟩

/-- A request past the end of its region is refused with the region's length. -/
theorem guardRead_of_lt {partition : Partition} {region : Region} {offset len : Nat}
    (hlim : offset + len < Word.limit) (h : partition.regionSize region < offset + len) :
    partition.guardRead region offset len =
      refuse (.pastEnd region offset len (partition.regionSize region)) := by
  have hadd : Word.add offset len = .ok (offset + len) := Word.add_eq_ok_iff.mpr ⟨hlim, rfl⟩
  simp [guardRead, hadd, h]

theorem guardDatabaseWrite_eq_ok_iff {partition : Partition} {offset len : Nat} :
    partition.guardDatabaseWrite offset len = .ok () ↔
      offset + len + blockSize < Word.limit ∧
      partition.journalSize + blockSize < Word.limit ∧
      offset + len + blockSize ≤ partition.capacity - partition.reserve ∧
      offset + len ≤ databaseCeiling partition.capacity ∧ offset + len ≤ sizeWordMax := by
  simp only [guardDatabaseWrite, bind_eq_ok_iff, Word.add_eq_ok_iff, journalReserve_eq_ok_iff,
    refuse_if_eq_ok_iff]
  constructor
  · rintro ⟨stop, ⟨-, rfl⟩, kept, ⟨hjournal, rfl⟩, guarded, ⟨hguarded, rfl⟩, hnot⟩
    refine ⟨hguarded, hjournal, ?_, ?_, ?_⟩ <;> omega
  · rintro ⟨hguarded, hjournal, hstart, hceiling, hword⟩
    exact ⟨_, ⟨by omega, rfl⟩, _, ⟨hjournal, rfl⟩, _, ⟨hguarded, rfl⟩, by omega⟩

/-- A write over bytes that a database below the ceiling already has need only end in front of
the journal's blocks. -/
theorem guardDatabaseWrite_within_iff {partition : Partition} {offset len : Nat}
    (hcapacity : partition.capacity < 1 <<< 32)
    (hmodest : partition.databaseSize ≤ databaseCeiling partition.capacity)
    (hin : offset + len ≤ partition.databaseSize) :
    partition.guardDatabaseWrite offset len = .ok () ↔
      partition.journalSize + blockSize < Word.limit ∧
      offset + len + blockSize ≤ partition.capacity - partition.reserve := by
  rw [guardDatabaseWrite_eq_ok_iff]
  constructor
  · rintro ⟨-, hjournal, hroom, -, -⟩
    exact ⟨hjournal, hroom⟩
  · rintro ⟨hjournal, hroom⟩
    refine ⟨Word.lt_limit_of_lt_half (by omega), hjournal, hroom, by omega, ?_⟩
    unfold sizeWordMax
    omega

/-- Without a journal a database write need only end inside the blob and below the ceiling. -/
theorem guardDatabaseWrite_alone_iff {partition : Partition} {offset len : Nat}
    (hnone : partition.journalSize = 0) (hcapacity : partition.capacity < 1 <<< 32) :
    partition.guardDatabaseWrite offset len = .ok () ↔
      offset + len + blockSize ≤ partition.capacity ∧
      offset + len ≤ databaseCeiling partition.capacity := by
  have hreserve : partition.reserve = 0 := by
    have hblocks : blocksFor 0 = 0 := by decide
    rw [reserve, hnone, hblocks, Nat.mul_zero, Nat.zero_min]
  rw [guardDatabaseWrite_eq_ok_iff, hreserve, hnone, Nat.sub_zero]
  constructor
  · rintro ⟨-, -, hroom, hceiling, -⟩
    exact ⟨hroom, hceiling⟩
  · rintro ⟨hroom, hceiling⟩
    refine ⟨Word.lt_limit_of_lt_half (by omega), by decide, hroom, hceiling, ?_⟩
    unfold sizeWordMax
    omega

theorem guardJournalRun_eq_ok_iff {partition : Partition} {address len : Nat} :
    partition.guardJournalRun address len = .ok () ↔
      partition.databaseSize + blockSize < Word.limit ∧
      partition.databaseSize + blockSize ≤ address := by
  simp only [guardJournalRun, bind_eq_ok_iff, Word.add_eq_ok_iff, refuse_if_eq_ok_iff]
  constructor
  · rintro ⟨limit, ⟨hlim, rfl⟩, hle⟩
    exact ⟨hlim, by omega⟩
  · rintro ⟨hlim, hle⟩
    exact ⟨_, ⟨hlim, rfl⟩, by omega⟩

end TwinRegion.Partition
