/-
TwinRegion.Partition.Extent — where the bytes of a journal request live.

The journal's blocks lie in reverse order: logical block `k` is the block
that ends `k` blocks below the end of the blob. A request is cut at the
borders of the logical blocks into extents, each of which is one run of
the medium.
-/
import TwinRegion.Partition

namespace TwinRegion

/-- A run of bytes on the medium and its place in the caller's buffer. -/
structure Extent where
  address : Nat
  len : Nat
  bufferStart : Nat
  deriving DecidableEq, Repr, Inhabited

/-- The extents of a request in order, and the fault that cut the row short if
one did. -/
structure Extents where
  runs : List Extent
  stop : Option Failure
  deriving Repr, Inhabited

namespace Partition

/-- The place of a logical journal byte. A block that would begin before the
blob is put at its front; the database's header lies there, so no write gets it. -/
def journalAddress (capacity logical : Nat) : Except Failure Nat := do
  let below ← Word.mul blockSize (← Word.add (logical / blockSize) 1)
  Word.add (capacity - below) (logical % blockSize)

/-- The bytes of the request that lie in the logical block of its first byte. -/
def runLen (logical remaining : Nat) : Nat := min remaining (blockSize - logical % blockSize)

theorem runLen_pos {logical remaining : Nat} (h : remaining ≠ 0) :
    0 < runLen logical remaining := by
  have := Nat.mod_lt logical (show 0 < blockSize by decide)
  unfold runLen
  omega

theorem runLen_le (logical remaining : Nat) : runLen logical remaining ≤ remaining :=
  Nat.min_le_left ..

/-- The extents of `remaining` bytes from logical byte `logical` on, the first
of which is byte `bufferStart` of the caller's buffer. -/
def extentsFrom (capacity logical remaining bufferStart : Nat) : Extents :=
  if remaining = 0 then ⟨[], none⟩ else
  let len := runLen logical remaining
  let placed : Except Failure (Nat × Nat × Nat) := do
    let address ← journalAddress capacity logical
    return (address, ← Word.add logical len, ← Word.add bufferStart len)
  match placed with
  | .error failure => ⟨[], some failure⟩
  | .ok (address, next, nextInBuffer) =>
    let rest := extentsFrom capacity next (remaining - len) nextInBuffer
    ⟨⟨address, len, bufferStart⟩ :: rest.runs, rest.stop⟩
termination_by remaining
decreasing_by
  have : 0 < runLen logical remaining := runLen_pos (by assumption)
  omega

/-- The extents of a journal request. -/
def extents (partition : Partition) (offset len : Nat) : Extents :=
  extentsFrom partition.capacity offset len 0

end Partition

end TwinRegion
