/-
TwinRegion.Proofs.Filling — the rows of a table do not depend on its transactions.

Row `i` of the reference rows is the one that the sizes of the rows before it
place (`referenceRow`). A filling goes through one kind of state only, the
one after the first so many reference rows (`Filling.after`): a transaction
leads from such a state to the next (`Filling.commit_after`), so the
`count`-th leaves `count` times its rows (`Filling.commits_after`), and what
is left when all rows are in does not depend on how many a transaction has
(`fill_reference`).

Nothing overflows on the way. A row number stays below `rowLimit` because a
second transaction starts only if the first one left rows, which bounds
their number by that of all rows; a position stays below `valueLimit`
because a row is less than 2^32 in size (`sizesBefore_lt`).
-/
import Mathlib.Algebra.BigOperators.Group.Finset.Basic
import TwinRegion.Recording
import TwinRegion.Proofs.Outcome

namespace TwinRegion

/-- The sizes of the rows before row `n`, added up. -/
def sizesBefore (n : Nat) : Nat := ∑ i ∈ Finset.range n, Recording.sizeAt i

@[simp] theorem sizesBefore_zero : sizesBefore 0 = 0 := rfl

theorem sizesBefore_succ (n : Nat) : sizesBefore (n + 1) = sizesBefore n + Recording.sizeAt n :=
  Finset.sum_range_succ ..

/-- Row `i`, where the rows before it put it. -/
def referenceRow (i : Nat) : Recording :=
  (Recording.row i (sizesBefore i)).toOption.getD default

/-- The first `n` rows in their order. -/
def referenceRows (n : Nat) : RecordingTable := (Array.range n).map referenceRow

@[simp] theorem referenceRows_zero : referenceRows 0 = #[] := by
  simp [referenceRows]

theorem referenceRows_succ (n : Nat) :
    referenceRows (n + 1) = (referenceRows n).push (referenceRow n) := by
  simp [referenceRows, Array.range_succ]

/-! ## A row -/

namespace Recording

theorem sizeAt_lt {i : Nat} (h : i < 1 <<< 31) : sizeAt i < 1 <<< 32 := by
  unfold sizeAt
  omega

theorem of_row {i before : Nat} {segment : Recording} (h : row i before = .ok segment) :
    segment.start = 0x112233 + i * 100 ∧ segment.size = sizeAt i ∧
      segment.position = before + sizeAt i := by
  unfold row at h
  split at h
  · cases h
  · cases h
    exact ⟨rfl, rfl, rfl⟩

/-- Every column of a row is in its bounds. No number that the row is made of is larger than its
`stop` or its `position`. -/
theorem lt_valueLimit_of_row {i before : Nat} {segment : Recording} (hi : i < 1 <<< 31)
    (h : row i before = .ok segment) : ∀ value ∈ segment.fields, value < valueLimit := by
  have hsize := sizeAt_lt hi
  unfold row at h
  split at h
  · cases h
  · cases h
    simp only [fields, List.forall_mem_cons, valueLimit] at *
    simp
    omega

end Recording

theorem sizesBefore_le {n : Nat} (h : n ≤ 1 <<< 31) : sizesBefore n + n ≤ n * 2 ^ 32 := by
  induction n with
  | zero => simp
  | succ n ih =>
    have hbefore := ih (by omega)
    have hsize := Recording.sizeAt_lt (Nat.lt_of_succ_le h)
    rw [sizesBefore_succ]
    omega

theorem sizesBefore_lt {n : Nat} (h : n ≤ 1 <<< 31) : sizesBefore n < Recording.valueLimit := by
  have hle := sizesBefore_le h
  unfold Recording.valueLimit
  omega

theorem row_sizesBefore {i : Nat} (h : i < 1 <<< 31) :
    Recording.row i (sizesBefore i) = .ok (referenceRow i) := by
  have hroom := sizesBefore_lt (Nat.succ_le_of_lt h)
  rw [sizesBefore_succ] at hroom
  simp [referenceRow, Recording.row, Nat.not_le.mpr hroom, Except.toOption]

theorem size_referenceRow {i : Nat} (h : i < 1 <<< 31) :
    (referenceRow i).size = Recording.sizeAt i :=
  (Recording.of_row (row_sizesBefore h)).2.1

theorem position_referenceRow {i : Nat} (h : i < 1 <<< 31) :
    (referenceRow i).position = sizesBefore (i + 1) := by
  rw [sizesBefore_succ]
  exact (Recording.of_row (row_sizesBefore h)).2.2

theorem referenceRow_injective {i j : Nat} (hi : i < 1 <<< 31) (hj : j < 1 <<< 31)
    (h : referenceRow i = referenceRow j) : i = j := by
  have hstart := (Recording.of_row (row_sizesBefore hi)).1
  rw [h, (Recording.of_row (row_sizesBefore hj)).1] at hstart
  omega

theorem count_referenceRows {rows i : Nat} (hrows : rows ≤ 1 <<< 31) (hi : i < rows) :
    (referenceRows rows).toList.count (referenceRow i) = 1 := by
  have hnodup : (referenceRows rows).toList.Nodup := by
    simp only [referenceRows, Array.toList_map, Array.toList_range]
    apply List.nodup_range.map_on
    intro i hi j hj
    simp only [List.mem_range] at hi hj
    exact referenceRow_injective (hi.trans_le hrows) (hj.trans_le hrows)
  apply List.count_eq_one_of_mem hnodup
  simpa [referenceRows] using ⟨i, hi, rfl⟩

/-! ## A transaction -/

theorem insertRows_reference (table : RecordingTable) {first count : Nat}
    (h : first + count ≤ 1 <<< 31) :
    (table ++ referenceRows first).insertRows first count (sizesBefore first) =
      .ok (table ++ referenceRows (first + count), sizesBefore (first + count)) := by
  induction count generalizing first with
  | zero => rfl
  | succ count ih =>
    have hfirst : first < 1 <<< 31 := by omega
    have hrest := @ih (first + 1) (by omega)
    rw [referenceRows_succ, Array.append_push] at hrest
    rw [RecordingTable.insertRows, row_sizesBefore hfirst, ok_bind,
      position_referenceRow hfirst, hrest, Nat.add_right_comm, Nat.add_assoc]

/-- Of the rows before a transaction there are whole batches. That many fit with one more, as a batch
that is not the first one is no longer than the batches before it. -/
theorem transactionEnd_eq {rows batch count : Nat} (hrows : rows ≤ 1 <<< 31)
    (hbatch : batch < Recording.rowLimit) (hcount : count * max batch 1 < rows) :
    RecordingTable.transactionEnd rows batch (count * max batch 1) =
      .ok (min rows ((count + 1) * max batch 1)) := by
  have hfits : count * max batch 1 + max batch 1 < Recording.rowLimit := by
    unfold Recording.rowLimit at *
    cases count with
    | zero => omega
    | succ count =>
      have hfirst := Nat.le_mul_of_pos_left (max batch 1) count.succ_pos
      rw [Nat.succ_eq_add_one] at hfirst
      omega
  rw [RecordingTable.transactionEnd, if_pos hfits, Nat.succ_mul]

namespace Filling

/-- The filling of a table that has got the first `n` rows. -/
def after (table : RecordingTable) (n : Nat) : Filling :=
  ⟨table ++ referenceRows n, n, sizesBefore n⟩

@[simp] theorem inserted_after (table : RecordingTable) (n : Nat) :
    (after table n).inserted = n := rfl

/-- What a filling does next: one more transaction, if there are rows for it. -/
def next (rows batch : Nat) (filling : Filling) : Except Failure Filling :=
  if filling.inserted < rows then filling.commit rows batch else .ok filling

/-- A filling after its next `count` transactions, or after all that it has. -/
def commits (rows batch : Nat) (filling : Filling) : (count : Nat) → Except Failure Filling
  | 0 => .ok filling
  | count + 1 => do (← filling.commits rows batch count).next rows batch

theorem run_eq_next (rows batch : Nat) (filling : Filling) :
    filling.run rows batch = (filling.next rows batch >>= run rows batch) := by
  rw [next]
  split
  case isTrue hlt =>
    rw [run, dif_pos hlt]
    split <;> simp_all
  case isFalse => rw [ok_bind]

theorem run_eq_commits (rows batch count : Nat) (filling : Filling) :
    filling.run rows batch = (filling.commits rows batch count >>= run rows batch) := by
  induction count with
  | zero => rfl
  | succ count ih =>
    rw [ih, commits]
    cases filling.commits rows batch count with
    | error failure => rfl
    | ok filling => exact run_eq_next rows batch filling

variable {rows batch : Nat}

theorem commit_after (table : RecordingTable) {count : Nat} (hrows : rows ≤ 1 <<< 31)
    (hbatch : batch < Recording.rowLimit) (hcount : count * max batch 1 < rows) :
    (after table (count * max batch 1)).commit rows batch =
      .ok (after table (min rows ((count + 1) * max batch 1))) := by
  have hend := transactionEnd_eq hrows hbatch hcount
  obtain ⟨hlt, hle⟩ := RecordingTable.lt_transactionEnd hcount hend
  have hinsert := @insertRows_reference table (count * max batch 1)
    (min rows ((count + 1) * max batch 1) - count * max batch 1) (by omega)
  rw [Nat.add_sub_of_le (Nat.le_of_lt hlt)] at hinsert
  rw [after, commit]
  simp only [hend, hinsert, ok_bind]
  rfl

theorem next_after (table : RecordingTable) (count : Nat) (hrows : rows ≤ 1 <<< 31)
    (hbatch : batch < Recording.rowLimit) :
    (after table (min rows (count * max batch 1))).next rows batch =
      .ok (after table (min rows ((count + 1) * max batch 1))) := by
  by_cases hcount : count * max batch 1 < rows
  · rw [Nat.min_eq_right (Nat.le_of_lt hcount), next, inserted_after,
      if_pos hcount]
    exact commit_after table hrows hbatch hcount
  · have hall : rows ≤ (count + 1) * max batch 1 := by
      rw [Nat.succ_mul]
      omega
    rw [Nat.min_eq_left (Nat.le_of_not_lt hcount), Nat.min_eq_left hall]
    exact if_neg (Nat.lt_irrefl rows)

theorem commits_after (table : RecordingTable) (count : Nat) (hrows : rows ≤ 1 <<< 31)
    (hbatch : batch < Recording.rowLimit) :
    (after table 0).commits rows batch count =
      .ok (after table (min rows (count * max batch 1))) := by
  induction count with
  | zero => simp [commits]
  | succ count ih =>
    rw [commits, ih, ok_bind]
    exact next_after table count hrows hbatch

theorem run_after (table : RecordingTable) (hrows : rows ≤ 1 <<< 31)
    (hbatch : batch < Recording.rowLimit) :
    (after table 0).run rows batch = .ok (after table rows) := by
  have hall : rows ≤ rows * max batch 1 := Nat.le_mul_of_pos_right rows (by omega)
  rw [run_eq_commits rows batch rows, commits_after table rows hrows hbatch, Nat.min_eq_left hall,
    ok_bind, run]
  exact dif_neg (Nat.lt_irrefl rows)

end Filling

/-- Up to 2^31 rows are inserted whatever the size of the transactions, 0 included. No sum on the
way is too large. Each row is the reference row of its number, is inserted once, and its position
counts the sizes of the rows up to its own; the `count`-th transaction leaves the first
`count * max batch 1` of them in the table, as far as there are so many. -/
theorem fill_reference {rows : Nat} (hrows : rows ≤ 1 <<< 31) :
    (∀ i < rows,
      Recording.row i (sizesBefore i) = .ok (referenceRow i) ∧
      (referenceRow i).size = Recording.sizeAt i ∧
      (referenceRow i).position = sizesBefore (i + 1) ∧
      (∀ value ∈ (referenceRow i).fields, value < Recording.valueLimit) ∧
      (referenceRows rows).toList.count (referenceRow i) = 1) ∧
    ∀ (table : RecordingTable) {batch : Nat}, batch < Recording.rowLimit →
      table.fill rows batch = .ok (table ++ referenceRows rows) ∧
      ∀ count, ∃ filling, (⟨table, 0, 0⟩ : Filling).commits rows batch count = .ok filling ∧
        filling.inserted = min rows (count * max batch 1) ∧
        filling.table = table ++ referenceRows filling.inserted ∧
        filling.position = sizesBefore filling.inserted ∧
        (⟨table, 0, 0⟩ : Filling).run rows batch = filling.run rows batch := by
  constructor
  · intro i hi
    have hlt : i < 1 <<< 31 := by omega
    exact ⟨row_sizesBefore hlt, size_referenceRow hlt, position_referenceRow hlt,
      Recording.lt_valueLimit_of_row hlt (row_sizesBefore hlt), count_referenceRows hrows hi⟩
  · intro table batch hbatch
    have hstart : (⟨table, 0, 0⟩ : Filling) = .after table 0 := by simp [Filling.after]
    rw [hstart]
    constructor
    · rw [RecordingTable.fill, hstart, Filling.run_after table hrows hbatch]
      rfl
    · intro count
      have hcommits := Filling.commits_after table count hrows hbatch
      refine ⟨_, hcommits, rfl, rfl, rfl, ?_⟩
      rw [Filling.run_eq_commits rows batch count, hcommits]
      rfl

/-- Three rows in transactions of no rows and of two: the same table, and the row after the first
two follows 2097350 bytes. -/
theorem fill_reference_three :
    RecordingTable.fill #[] 3 0 = RecordingTable.fill #[] 3 2 ∧
    ∃ filling, (⟨#[], 0, 0⟩ : Filling).commits 3 2 1 = .ok filling ∧ filling.inserted = 2 ∧
      filling.position = 2097350 := by
  obtain ⟨-, hfill⟩ := @fill_reference 3 (by decide)
  obtain ⟨hnone, -⟩ := @hfill #[] 0 (by decide)
  obtain ⟨htwo, hcommits⟩ := @hfill #[] 2 (by decide)
  obtain ⟨filling, hfilling, hinserted, -, hposition, -⟩ := hcommits 1
  exact ⟨hnone.trans htwo.symm, filling, hfilling, hinserted,
    hposition.trans (hinserted ▸ by decide)⟩

end TwinRegion
