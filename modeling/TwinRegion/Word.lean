/-
TwinRegion.Word — 64-bit arithmetic that stops instead of wrapping.

Offsets, lengths and sizes are natural numbers below `Word.limit`. Each
operation here gives the exact result when that result is again such a
number and a fault otherwise, so a computation that ends without a fault
is one that holds in the natural numbers.
-/
import TwinRegion.Step

namespace TwinRegion.Word

/-- One more than the largest 64-bit number. -/
def limit : Nat := 1 <<< 64

def add (a b : Nat) : Except Failure Nat :=
  if a + b < limit then .ok (a + b) else .error (.fault .addOverflow)

def sub (a b : Nat) : Except Failure Nat :=
  if b ≤ a then .ok (a - b) else .error (.fault .subOverflow)

def mul (a b : Nat) : Except Failure Nat :=
  if a * b < limit then .ok (a * b) else .error (.fault .mulOverflow)

def div (a b : Nat) : Except Failure Nat :=
  if b = 0 then .error (.fault .divideByZero) else .ok (a / b)

def rem (a b : Nat) : Except Failure Nat :=
  if b = 0 then .error (.fault .remainderByZero) else .ok (a % b)

theorem add_eq_ok_iff {a b c : Nat} : add a b = .ok c ↔ a + b < limit ∧ a + b = c := by
  grind [add]

theorem lt_limit_of_le_half {n : Nat} (h : n ≤ 1 <<< 63) : n < limit := by
  unfold limit
  omega

theorem lt_limit_of_lt_half {n : Nat} (h : n < 1 <<< 63) : n < limit :=
  lt_limit_of_le_half (Nat.le_of_lt h)

/-- A sum of at most half of the limit does not overflow. -/
theorem add_of_le_half {a b : Nat} (h : a + b ≤ 1 <<< 63) : add a b = .ok (a + b) :=
  add_eq_ok_iff.mpr ⟨lt_limit_of_le_half h, rfl⟩

theorem add_of_lt_half {a b : Nat} (h : a + b < 1 <<< 63) : add a b = .ok (a + b) :=
  add_of_le_half (Nat.le_of_lt h)

theorem sub_eq_ok_iff {a b c : Nat} : sub a b = .ok c ↔ b ≤ a ∧ a - b = c := by
  grind [sub]

theorem mul_eq_ok_iff {a b c : Nat} : mul a b = .ok c ↔ a * b < limit ∧ a * b = c := by
  grind [mul]

theorem div_eq_ok_iff {a b c : Nat} : div a b = .ok c ↔ b ≠ 0 ∧ a / b = c := by
  unfold div; split <;> simp_all

theorem rem_eq_ok_iff {a b c : Nat} : rem a b = .ok c ↔ b ≠ 0 ∧ a % b = c := by
  unfold rem; split <;> simp_all

end TwinRegion.Word
