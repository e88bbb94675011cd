/-
TwinRegion.Bytes — byte strings.

`Bytes` is an array of bytes. The four-byte word is the unit in which the
blob's length and its journal mark are written; it is big-endian.
-/
import TwinRegion.Word

namespace TwinRegion

abbrev Bytes := Array UInt8

namespace Bytes

/-- `n` zero bytes. -/
def zeros (n : Nat) : Bytes := Array.replicate n 0

/-- The `len` bytes from `start` on, or a fault if there are fewer. -/
def slice (bytes : Bytes) (start len : Nat) : Except Failure Bytes := do
  let stop ← Word.add start len
  if bytes.size < stop then throw (.fault .outOfRange)
  return bytes.extract start stop

/-- The four bytes of the low 32 bits of `n`, most significant first. -/
def ofWord32 (n : Nat) : Bytes :=
  #[UInt8.ofNat (n / 0x1000000), UInt8.ofNat (n / 0x10000), UInt8.ofNat (n / 0x100), UInt8.ofNat n]

/-- The number whose base-256 digits are the bytes, most significant first. -/
def toNat (bytes : Bytes) : Nat :=
  bytes.foldl (fun n b => n * 256 + b.toNat) 0

/-- Some byte differs from zero. -/
def anyNonzero (bytes : Bytes) : Bool := bytes.any (· ≠ 0)

@[simp] theorem size_zeros (n : Nat) : (zeros n).size = n := by simp [zeros]

theorem getD_zeros (n i : Nat) : (zeros n).getD i 0 = 0 := by
  by_cases h : i < n <;> simp [zeros, Array.getD, h]

@[simp] theorem size_ofWord32 (n : Nat) : (ofWord32 n).size = 4 := rfl

theorem anyNonzero_zeros (n : Nat) : (zeros n).anyNonzero = false := by
  rw [anyNonzero, Array.any_eq_false]
  simp [zeros]

/-- A word holds exactly the low 32 bits. -/
theorem toNat_ofWord32 (n : Nat) : toNat (ofWord32 n) = n % 1 <<< 32 := by
  simp [toNat, ofWord32]
  omega

/-- Four bytes are the word of the number that they spell. -/
theorem ofWord32_toNat {word : Bytes} (h : word.size = 4) : ofWord32 (toNat word) = word := by
  obtain ⟨a, b, c, d, rfl⟩ : ∃ a b c d, word = #[a, b, c, d] := by
    obtain ⟨bytes⟩ := word
    match bytes, h with
    | [a, b, c, d], _ => exact ⟨a, b, c, d, rfl⟩
  have ha := a.toNat_lt
  have hb := b.toNat_lt
  have hc := c.toNat_lt
  have hd := d.toNat_lt
  simp [ofWord32, toNat, ← UInt8.toNat_inj]
  omega

end Bytes

end TwinRegion
