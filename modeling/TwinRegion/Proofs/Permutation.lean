/-
TwinRegion.Proofs.Permutation — the journal's addresses are the blob's, in another order.

The journal's map sends the bytes of a blob onto the bytes of the same
blob, each to one place of its own (`bijOn_place`). No condition is put on
the capacity: where it is no multiple of a block, the last logical block
begins before the blob, is put at its front, and fills exactly the bytes
that the whole blocks leave over there.

A request inside the blob is cut into runs that follow each other without
gap or overlap (`Tiles.of_append`), each inside one block and inside the
blob, and byte for byte in the places of the map
(`journal_addresses_permute`).
-/
import Mathlib.Data.Finset.Card
import TwinRegion.Proofs.Tiling

namespace TwinRegion.Partition

/-! ## The map -/

theorem place_lt {capacity logical : Nat} (h : logical < capacity) :
    place capacity logical < capacity := by
  unfold place blockSize
  omega

/-- Two bytes of the blob have two places, also where the last block is cut. -/
theorem place_injOn (capacity : Nat) : Set.InjOn (place capacity) (Set.Iio capacity) := by
  intro p hp q hq h
  rw [Set.mem_Iio] at hp hq
  unfold place blockSize at h
  omega

/-- The map takes the blob onto itself. -/
theorem bijOn_place (capacity : Nat) :
    Set.BijOn (place capacity) (Set.Iio capacity) (Set.Iio capacity) := by
  have hmaps : Set.MapsTo (place capacity) (Set.Iio capacity) (Set.Iio capacity) :=
    fun _ h => place_lt h
  refine ⟨hmaps, place_injOn capacity, ?_⟩
  have hinj := place_injOn capacity
  rw [← Finset.coe_range] at hmaps hinj ⊢
  exact Finset.surjOn_of_injOn_of_card_le (place capacity) hmaps hinj (Nat.le_refl _)

/-! ## The runs of a request -/

theorem span_append (runs more : List Extent) : span (runs ++ more) = span runs + span more := by
  induction runs with
  | nil => simp
  | cons run rest ih => simp [ih, Nat.add_assoc]

/-- A run starts in the journal and in the buffer where the runs before it end. -/
theorem Tiles.of_append {capacity logical start : Nat} {before after : List Extent} {run : Extent}
    (h : Tiles capacity logical start (before ++ run :: after)) :
    run.bufferStart = start + span before ∧ run.address = place capacity (logical + span before) ∧
      0 < run.len ∧ run.len ≤ blockSize - (logical + span before) % blockSize := by
  induction before generalizing logical start with
  | nil =>
    cases h with
    | cons hpos hblock _ _ => exact ⟨rfl, rfl, hpos, hblock⟩
  | cons first rest ih =>
    cases h with
    | cons _ _ _ htail =>
      rw [span_cons, ← Nat.add_assoc, ← Nat.add_assoc]
      exact ih htail

/-- A run takes its bytes from the buffer that the runs of the tiling take up. -/
theorem Tiles.buffer_le {capacity logical start : Nat} {runs : List Extent} {run : Extent}
    (h : Tiles capacity logical start runs) (hrun : run ∈ runs) :
    run.bufferStart + run.len ≤ start + span runs := by
  obtain ⟨before, later, rfl⟩ := List.append_of_mem hrun
  obtain ⟨hstart, -⟩ := h.of_append
  rw [span_append, span_cons]
  omega

/-- A request whose end is well within 64 bits is tiled to its end by runs that lie inside the
blob. -/
theorem extents_whole {partition : Partition} {offset len : Nat}
    (hblock : blockSize ≤ partition.capacity) (hcapacity : partition.capacity < Word.limit)
    (hend : offset + len + blockSize ≤ Word.limit) :
    (partition.extents offset len).stop = none ∧
      span (partition.extents offset len).runs = len ∧
      ∀ run ∈ (partition.extents offset len).runs,
        run.address + run.len ≤ partition.capacity ∧ run.bufferStart + run.len ≤ len := by
  have hstop : (partition.extents offset len).stop = none :=
    stop_extentsFrom_of_lt_limit (Nat.le_of_lt hcapacity) hend (by unfold blockSize at hend; omega)
  have hspan : span (partition.extents offset len).runs = len := span_extentsFrom hstop
  refine ⟨hstop, hspan, fun run hrun => ⟨extents_bounds hblock hrun, ?_⟩⟩
  have hbuffer := (tiles_extents partition offset len).buffer_le hrun
  rw [hspan] at hbuffer
  omega

/-- A run of a byte range that stays in one block and inside the blob. -/
theorem place_add_le_of_le {capacity logical len : Nat} (hpos : 0 < len)
    (hblock : len ≤ blockSize - logical % blockSize) (h : logical + len ≤ capacity) :
    place capacity logical + len ≤ capacity := by
  have hlast := place_lt (show logical + (len - 1) < capacity by omega)
  rw [place_add (by omega)] at hlast
  omega

/-- A request for one byte has one run, at the byte's place. -/
theorem extents_one {partition : Partition} (hcapacity : partition.capacity ≤ 1 <<< 63)
    {logical : Nat} (h : logical < partition.capacity) :
    partition.extents logical 1 = ⟨[⟨place partition.capacity logical, 1, 0⟩], none⟩ := by
  have hplace := journalAddress_of_lt hcapacity (show logical < 1 <<< 63 by omega)
  have hrun : runLen logical 1 = 1 := by
    have := runLen_le logical 1
    have := @runLen_pos logical 1 Nat.one_ne_zero
    omega
  have hnext : Word.add logical 1 = .ok (logical + 1) := Word.add_of_le_half (by omega)
  have hbuffer : Word.add 0 1 = .ok (0 + 1) := Word.add_of_le_half (by decide)
  rw [extents, extentsFrom, if_neg Nat.one_ne_zero]
  simp [hrun, hplace, hnext, hbuffer, pure, Except.pure, extentsFrom_zero]

/-- For every capacity up to 2^63, in whole blocks or not: each byte of the blob has a place of
its own as a journal byte, and all places are taken. The runs of a request inside the blob
take up its buffer in order and without a gap; each of them has at least one byte, stays in
one logical block and inside the blob, and puts its bytes in their places. -/
theorem journal_addresses_permute {partition : Partition}
    (hcapacity : partition.capacity ≤ 1 <<< 63) :
    (∀ logical, logical < partition.capacity →
      partition.extents logical 1 = ⟨[⟨place partition.capacity logical, 1, 0⟩], none⟩) ∧
    Set.BijOn (place partition.capacity) (Set.Iio partition.capacity)
      (Set.Iio partition.capacity) ∧
    ∀ offset len, offset + len ≤ partition.capacity →
      (partition.extents offset len).stop = none ∧
      span (partition.extents offset len).runs = len ∧
      ∀ before run after, (partition.extents offset len).runs = before ++ run :: after →
        run.bufferStart = span before ∧ 0 < run.len ∧ run.len ≤ blockSize ∧
        (offset + run.bufferStart) / blockSize =
          (offset + run.bufferStart + run.len - 1) / blockSize ∧
        run.address + run.len ≤ partition.capacity ∧
        ∀ i < run.len,
          run.address + i = place partition.capacity (offset + run.bufferStart + i) := by
  refine ⟨fun logical h => extents_one hcapacity h, bijOn_place _, fun offset len hin => ?_⟩
  have hstop : (partition.extents offset len).stop = none :=
    stop_extentsFrom hcapacity (by omega) (by omega)
  have hspan : span (partition.extents offset len).runs = len := span_extentsFrom hstop
  refine ⟨hstop, hspan, fun before run after hruns => ?_⟩
  have htiles : Tiles partition.capacity offset 0 (before ++ run :: after) :=
    hruns ▸ tiles_extentsFrom partition.capacity offset len 0
  obtain ⟨hstart, haddress, hpos, hblock⟩ := htiles.of_append
  rw [Nat.zero_add] at hstart
  rw [← hstart] at haddress hblock
  have hend : offset + run.bufferStart + run.len ≤ partition.capacity := by
    rw [hruns, span_append, span_cons] at hspan
    omega
  refine ⟨hstart, hpos, Nat.le_trans hblock (Nat.sub_le _ _), ?_, ?_, fun i hi => ?_⟩
  · unfold blockSize at *
    omega
  · rw [haddress]
    exact place_add_le_of_le hpos hblock hend
  · have hin : i < blockSize - (offset + run.bufferStart) % blockSize := by omega
    rw [haddress, place_add hin]

/-- A blob of 1000 bytes: its second block is cut, and lies before the first. -/
theorem journal_addresses_permute_cut_block :
    place 1000 0 = 488 ∧ place 1000 512 = 0 ∧
      Set.BijOn (place 1000) (Set.Iio 1000) (Set.Iio 1000) ∧
      span (Partition.extents ⟨1000, 0, 0⟩ 400 600).runs = 600 := by
  obtain ⟨-, hbij, htile⟩ :=
    @journal_addresses_permute ⟨1000, 0, 0⟩ (show 1000 ≤ 1 <<< 63 by decide)
  exact ⟨by decide, by decide, hbij, (htile 400 600 (by decide)).2.1⟩

end TwinRegion.Partition
