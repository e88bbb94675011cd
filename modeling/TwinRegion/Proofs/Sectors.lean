/-
TwinRegion.Proofs.Sectors — the whole sectors that a range lies in.

A medium that only takes whole sectors is asked for more than the range that
is wanted. `LeastCover` says for how much: for whole sectors in which the range
lies, and which lie inside of all others in which it does. There are not two
of that kind (`LeastCover.unique`), and whole sectors are their own
(`leastCover_self`).

The sector size is any positive number here, so nothing is known of its bits:
rounding down finds the greatest multiple from below and rounding up the least
from above. The arithmetic of `sectorCover` gives the least cover exactly
where none of its sums overflows (`sectorCover_eq_ok_iff`), and what it gives
is given again when it is asked for (`sectorCover_least`).
-/
import Mathlib.Algebra.Order.Floor.Div
import Mathlib.Order.Bounds.Defs
import TwinRegion.Disk
import TwinRegion.Proofs.Outcome

namespace TwinRegion.Disk

variable {sectorSize offset len start span : Nat}

/-! ## Rounding -/

theorem isGreatest_roundedDown (hpos : 0 < sectorSize) (offset : Nat) :
    IsGreatest {a | sectorSize ∣ a ∧ a ≤ offset} (offset / sectorSize * sectorSize) := by
  refine ⟨⟨Nat.dvd_mul_left .., Nat.div_mul_le_self ..⟩, ?_⟩
  rintro _ ⟨⟨count, rfl⟩, hle⟩
  rw [Nat.mul_comm] at hle ⊢
  exact Nat.mul_le_mul_right _ ((Nat.le_div_iff_mul_le hpos).mpr hle)

theorem isLeast_roundedUp (hpos : 0 < sectorSize) (stop : Nat) :
    IsLeast {b | sectorSize ∣ b ∧ stop ≤ b}
      ((stop + sectorSize - 1) / sectorSize * sectorSize) := by
  rw [← Nat.ceilDiv_eq_add_pred_div]
  refine ⟨⟨Nat.dvd_mul_left .., ?_⟩, ?_⟩
  · rw [Nat.mul_comm]
    exact (ceilDiv_le_iff_le_mul hpos).mp (Nat.le_refl _)
  · rintro _ ⟨⟨count, rfl⟩, hle⟩
    rw [Nat.mul_comm sectorSize]
    exact Nat.mul_le_mul_right _ ((ceilDiv_le_iff_le_mul hpos).mpr hle)

/-! ## Covers -/

/-- `span` bytes from `start` on are whole sectors with the `len` bytes at `offset` in them, and
lie inside of all whole sectors from some `a` up to some `b` with these bytes in them. -/
structure LeastCover (sectorSize offset len start span : Nat) : Prop where
  start_dvd : sectorSize ∣ start
  span_dvd : sectorSize ∣ span
  start_le : start ≤ offset
  le_stop : offset + len ≤ start + span
  inside : ∀ a b, sectorSize ∣ a → sectorSize ∣ b → a ≤ offset → offset + len ≤ b →
    a ≤ start ∧ start + span ≤ b

theorem LeastCover.unique {start' span' : Nat} (h : LeastCover sectorSize offset len start span)
    (h' : LeastCover sectorSize offset len start' span') : (start, span) = (start', span') := by
  have hle := h'.inside start (start + span) h.start_dvd (Nat.dvd_add h.start_dvd h.span_dvd)
    h.start_le h.le_stop
  have hge := h.inside start' (start' + span') h'.start_dvd
    (Nat.dvd_add h'.start_dvd h'.span_dvd) h'.start_le h'.le_stop
  rw [Prod.mk.injEq]
  omega

/-- Whole sectors are their own cover. -/
theorem leastCover_self (hstart : sectorSize ∣ start) (hspan : sectorSize ∣ span) :
    LeastCover sectorSize start span start span where
  start_dvd := hstart
  span_dvd := hspan
  start_le := Nat.le_refl _
  le_stop := Nat.le_refl _
  inside _ _ _ _ ha hb := ⟨ha, hb⟩

/-- The start is rounded down and the end is rounded up. -/
theorem leastCover_rounded (hpos : 0 < sectorSize) (offset len : Nat) :
    LeastCover sectorSize offset len (offset / sectorSize * sectorSize)
      ((offset + len + sectorSize - 1) / sectorSize * sectorSize -
        offset / sectorSize * sectorSize) := by
  obtain ⟨⟨hstart, hle⟩, hgreatest⟩ := isGreatest_roundedDown hpos offset
  obtain ⟨⟨hstop, hge⟩, hleast⟩ := isLeast_roundedUp hpos (offset + len)
  have hordered : offset / sectorSize * sectorSize ≤
      (offset + len + sectorSize - 1) / sectorSize * sectorSize := by omega
  refine ⟨hstart, Nat.dvd_sub hstop hstart, hle, ?_, fun a b ha hb hbelow habove => ?_⟩
  · rwa [Nat.add_sub_cancel' hordered]
  · rw [Nat.add_sub_cancel' hordered]
    exact ⟨hgreatest ⟨ha, hbelow⟩, hleast ⟨hb, habove⟩⟩

/-- A cover ends before one more sector than there has to be. -/
theorem LeastCover.stop_lt (hpos : 0 < sectorSize)
    (h : LeastCover sectorSize offset len start span) :
    start + span < offset + len + sectorSize := by
  obtain ⟨⟨hdvd, hge⟩, -⟩ := isLeast_roundedUp hpos (offset + len)
  have hstop := (h.inside start _ h.start_dvd hdvd h.start_le hge).2
  have hrounded := Nat.div_mul_le_self (offset + len + sectorSize - 1) sectorSize
  omega

/-! ## What is computed -/

/-- Where the largest sum is a 64-bit number, so is every other number on the way. -/
theorem sectorCover_rounded (hpos : 0 < sectorSize)
    (hroom : offset + len + sectorSize < Word.limit) :
    sectorCover offset len sectorSize = .ok (offset / sectorSize * sectorSize,
      (offset + len + sectorSize - 1) / sectorSize * sectorSize -
        offset / sectorSize * sectorSize) := by
  have hne : sectorSize ≠ 0 := Nat.ne_of_gt hpos
  have hstop : offset + len < Word.limit := by omega
  have hone : 1 ≤ offset + len + sectorSize := by omega
  have hrounded := Nat.div_mul_le_self (offset + len + sectorSize - 1) sectorSize
  have hordered := (leastCover_rounded hpos offset len).start_le
  have hge := (isLeast_roundedUp hpos (offset + len)).1.2
  rw [sectorCover, Word.rem_eq_ok_iff.mpr ⟨hne, rfl⟩, ok_bind,
    Word.sub_eq_ok_iff.mpr ⟨Nat.mod_le .., rfl⟩, ok_bind, Word.add_eq_ok_iff.mpr ⟨hstop, rfl⟩,
    ok_bind, Word.add_eq_ok_iff.mpr ⟨hroom, rfl⟩, ok_bind, Word.sub_eq_ok_iff.mpr ⟨hone, rfl⟩,
    ok_bind, Word.div_eq_ok_iff.mpr ⟨hne, rfl⟩, ok_bind,
    Word.mul_eq_ok_iff.mpr ⟨by omega, rfl⟩, ok_bind, ← Nat.div_mul_self_eq_mod_sub_self,
    Word.sub_eq_ok_iff.mpr ⟨by omega, rfl⟩]
  rfl

/-- There is an answer exactly if the sectors have a size and the end of the range, one sector
further on, is a 64-bit number. It is the least cover. -/
theorem sectorCover_eq_ok_iff :
    sectorCover offset len sectorSize = .ok (start, span) ↔
      0 < sectorSize ∧ offset + len + sectorSize < Word.limit ∧
        LeastCover sectorSize offset len start span := by
  constructor
  · intro h
    obtain ⟨hpos, hroom⟩ : 0 < sectorSize ∧ offset + len + sectorSize < Word.limit := by
      simp only [sectorCover, bind_eq_ok_iff, Word.rem_eq_ok_iff, Word.sub_eq_ok_iff,
        Word.add_eq_ok_iff] at h
      obtain ⟨_, ⟨hne, -⟩, _, -, _, ⟨-, rfl⟩, _, ⟨hroom, -⟩, -⟩ := h
      exact ⟨Nat.pos_of_ne_zero hne, hroom⟩
    rw [sectorCover_rounded hpos hroom, Except.ok.injEq, Prod.mk.injEq] at h
    obtain ⟨rfl, rfl⟩ := h
    exact ⟨hpos, hroom, leastCover_rounded hpos offset len⟩
  · rintro ⟨hpos, hroom, hleast⟩
    rw [sectorCover_rounded hpos hroom, (leastCover_rounded hpos offset len).unique hleast]

/-- The sectors that a medium takes are the cover of all its bytes. -/
theorem sectorsIn_eq_ok_iff {length sectors : Nat} :
    sectorsIn length sectorSize = .ok sectors ↔
      sectorCover 0 length sectorSize = .ok (0, sectors * sectorSize) := by
  constructor
  · intro h
    simp only [sectorsIn, bind_eq_ok_iff, Word.add_eq_ok_iff, Word.sub_eq_ok_iff,
      Word.div_eq_ok_iff] at h
    obtain ⟨_, ⟨hroom, rfl⟩, _, ⟨-, rfl⟩, hne, rfl⟩ := h
    have hcover := @sectorCover_rounded sectorSize 0 length (Nat.pos_of_ne_zero hne) (by omega)
    simpa using hcover
  · intro h
    obtain ⟨hpos, hroom, -⟩ := sectorCover_eq_ok_iff.mp h
    have hne : sectorSize ≠ 0 := Nat.ne_of_gt hpos
    rw [sectorCover_rounded hpos hroom] at h
    have hsectors : (length + sectorSize - 1) / sectorSize = sectors := by simpa [hne] using h
    rw [sectorsIn, Word.add_eq_ok_iff.mpr ⟨by omega, rfl⟩, ok_bind,
      Word.sub_eq_ok_iff.mpr ⟨by omega, rfl⟩, ok_bind]
    exact Word.div_eq_ok_iff.mpr ⟨hne, hsectors⟩

/-- For any sector size, and any range whose end is a 64-bit number even two sectors further on:
there is a least cover of whole sectors, that is what is computed, and computed from the cover it
is the same cover. -/
theorem sectorCover_least (hpos : 0 < sectorSize)
    (hroom : offset + len + 2 * sectorSize < Word.limit) :
    ∃ start span, sectorCover offset len sectorSize = .ok (start, span) ∧
      LeastCover sectorSize offset len start span ∧
      sectorCover start span sectorSize = .ok (start, span) := by
  have hleast := leastCover_rounded hpos offset len
  have hstop := hleast.stop_lt hpos
  refine ⟨_, _, sectorCover_eq_ok_iff.mpr ⟨hpos, by omega, hleast⟩, hleast, ?_⟩
  exact sectorCover_eq_ok_iff.mpr
    ⟨hpos, by omega, leastCover_self hleast.start_dvd hleast.span_dvd⟩

/-- Five bytes that lie in two sectors of seven. -/
theorem sectorCover_least_seven :
    10 + 5 + 2 * 7 < Word.limit ∧ sectorCover 10 5 7 = .ok (7, 14) ∧ LeastCover 7 10 5 7 14 ∧
      sectorCover 7 14 7 = .ok (7, 14) := by
  have hroom : 10 + 5 + 2 * 7 < Word.limit := by decide
  have hcover : sectorCover 10 5 7 = .ok (7, 14) := by decide
  obtain ⟨start, span, hfound, hleast, hagain⟩ := sectorCover_least (by decide : 0 < 7) hroom
  obtain ⟨rfl, rfl⟩ := Prod.mk.inj (Except.ok.inj (hfound.symm.trans hcover))
  exact ⟨hroom, hcover, hleast, hagain⟩

end TwinRegion.Disk
