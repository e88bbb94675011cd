/-
TwinRegion.Recording — the table of recording segments.

The rows of the table are made up: row `i` follows from `i` and from the
sizes of the rows before it. They are inserted in transactions of a given
number of rows. Four queries over the table are counted, the first of them
over all its rows.
-/
import TwinRegion.Error

namespace TwinRegion

/-- One recording segment. -/
structure Recording where
  device : Nat
  part : Nat
  file : Nat
  channel : Nat
  kind : Nat
  start : Nat
  stop : Nat
  size : Nat
  indexCount : Nat
  keyIndexCount : Nat
  position : Nat
  flag : Nat
  pack : Nat
  deriving DecidableEq, Repr, Inhabited

namespace Recording

/-- The names of the columns in the order of `fields`. -/
def columns : List String :=
  ["devNo", "partion", "fileNo", "channel", "storeType", "startTime", "stopTime", "dataSize",
    "idxAmount", "idxIAmount", "segPos", "segAttr", "packSerial"]

def fields (segment : Recording) : List Nat :=
  [segment.device, segment.part, segment.file, segment.channel, segment.kind,
    segment.start, segment.stop, segment.size, segment.indexCount, segment.keyIndexCount,
    segment.position, segment.flag, segment.pack]

/-- One more than the largest row number. -/
def rowLimit : Nat := 1 <<< 32

/-- One more than the largest value of a column. -/
def valueLimit : Nat := 1 <<< 63

/-- The size of row `i`. -/
def sizeAt (i : Nat) : Nat := 1024 * 1024 + i % 100 * 197 + i

/-- Row `i`, when the sizes of the rows before it add up to `before`. Its position
counts its own size too. -/
def row (i before : Nat) : Except Failure Recording :=
  let start := 0x112233 + i * 100
  let indexCount := i % 7 * 13 + i % 19
  if valueLimit ≤ before + sizeAt i then .error (.fault .addOverflow) else
  .ok
    { device := i % 2
      part := i / 1024 % 2
      file := i / 32 % 1024
      channel := i % 32
      kind := i % 16
      start := start
      stop := start + 99
      size := sizeAt i
      indexCount := indexCount
      keyIndexCount := indexCount / 25
      position := before + sizeAt i
      flag := i * 7 % 2
      pack := i * 17 % 2 }

end Recording

/-- The rows in the order in which they were inserted. -/
abbrev RecordingTable := Array Recording

namespace RecordingTable

/-- Adds `count` rows from row `first` on; the answer is the table and where the
next row goes. -/
def insertRows (table : RecordingTable) (first : Nat) : (count position : Nat) →
    Except Failure (RecordingTable × Nat)
  | 0, position => .ok (table, position)
  | count + 1, position => do
    let segment ← Recording.row first position
    insertRows (table.push segment) (first + 1) count segment.position

/-- The row after the last one of a transaction that starts at row `inserted`. A
transaction of no rows would never end, so it has at least one. -/
def transactionEnd (rows batch inserted : Nat) : Except Failure Nat :=
  if inserted + max batch 1 < Recording.rowLimit then .ok (min rows (inserted + max batch 1))
  else .error (.fault .addOverflow)

theorem lt_transactionEnd {rows batch inserted stop : Nat} (h : inserted < rows)
    (hstop : transactionEnd rows batch inserted = .ok stop) : inserted < stop ∧ stop ≤ rows := by
  unfold transactionEnd at hstop
  split at hstop
  · cases hstop; omega
  · cases hstop

end RecordingTable

/-- A table that is being filled. -/
structure Filling where
  table : RecordingTable
  /-- How many rows the committed transactions have inserted. -/
  inserted : Nat
  /-- Where the next row goes. -/
  position : Nat
  deriving Repr, Inhabited

namespace Filling

/-- Inserts the rows of one transaction and commits it. -/
def commit (rows batch : Nat) (filling : Filling) : Except Failure Filling := do
  let stop ← RecordingTable.transactionEnd rows batch filling.inserted
  let (table, position) ←
    filling.table.insertRows filling.inserted (stop - filling.inserted) filling.position
  return ⟨table, stop, position⟩

theorem inserted_lt_of_commit {rows batch : Nat} {filling next : Filling}
    (h : filling.inserted < rows) (hnext : filling.commit rows batch = .ok next) :
    filling.inserted < next.inserted ∧ next.inserted ≤ rows := by
  unfold commit at hnext
  cases hstop : RecordingTable.transactionEnd rows batch filling.inserted with
  | error failure => rw [hstop] at hnext; cases hnext
  | ok stop =>
    rw [hstop] at hnext
    have hbounds := RecordingTable.lt_transactionEnd h hstop
    simp only [bind, Except.bind] at hnext
    split at hnext
    · cases hnext
    · cases hnext; exact hbounds

/-- Commits transactions until all rows are in. -/
def run (rows batch : Nat) (filling : Filling) : Except Failure Filling :=
  if _h : filling.inserted < rows then
    match _hnext : filling.commit rows batch with
    | .error failure => .error failure
    | .ok next => next.run rows batch
  else .ok filling
termination_by rows - filling.inserted
decreasing_by
  have := inserted_lt_of_commit _h _hnext
  omega

end Filling

namespace RecordingTable

/-- Inserts `rows` rows, numbered from 0, in transactions of `batch` rows. -/
def fill (table : RecordingTable) (rows batch : Nat) : Except Failure RecordingTable := do
  return (← Filling.run rows batch ⟨table, 0, 0⟩).table

/-! ## Queries -/

/-- The conditions of the four reference queries. -/
def queries : List (Recording → Bool) :=
  [fun _ => true,
    fun segment => segment.channel = 11,
    fun segment => segment.channel = 11 && 50 ≤ segment.indexCount,
    fun segment => segment.channel < 16]

/-- How many rows each reference query finds. -/
def counts (table : RecordingTable) : List Nat :=
  queries.map table.countP

/-- The sum of each column. -/
def sums (table : RecordingTable) : List Nat :=
  table.foldl (fun sums segment => List.zipWith (· + ·) sums segment.fields)
    (Recording.columns.map fun _ => 0)

end RecordingTable

end TwinRegion
