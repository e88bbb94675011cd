/-
TwinRegion.Image — the contents of a medium or a file.

An `Image` is a length and a byte for every position, zero from the length
on. Only blocks that hold a nonzero byte are stored, so ten megabytes of
zeros cost nothing, and two images with the same bytes are equal
(`Image.ext_byte`). `byte` is the view: one equation per operation says
what it does to every position (`byte_write`, `byte_resize`, `getElem_read`).
-/
import TwinRegion.Partition
import Std.Data.ExtTreeMap

namespace TwinRegion

namespace Image

/-- Blocks of `blockSize` bytes by number; a block that is absent is all zero. -/
abbrev Blocks := Std.ExtTreeMap Nat Bytes

/-- The byte at a position. -/
def byteIn (blocks : Blocks) (position : Nat) : UInt8 :=
  match blocks[position / blockSize]? with
  | none => 0
  | some block => block.getD (position % blockSize) 0

/-- Every stored block is whole and not all zero. -/
def Stored (blocks : Blocks) : Prop :=
  ∀ (number : Nat) (block : Bytes), blocks[number]? = some block →
    block.size = blockSize ∧ block.anyNonzero = true

end Image

/-- A length and a byte for every position. -/
structure Image where
  size : Nat
  blocks : Image.Blocks
  stored : Image.Stored blocks
  /-- Nothing is kept past the end. -/
  zero_past : ∀ position, size ≤ position → Image.byteIn blocks position = 0

namespace Image

theorem block_pos : 0 < blockSize := by decide

/-- The byte at a position, zero past the end. -/
def byte (image : Image) (position : Nat) : UInt8 := byteIn image.blocks position

/-! ## Redrawing blocks -/

/-- Block `number` of the contents that `f` describes. -/
def drawBlock (f : Nat → UInt8) (number : Nat) : Bytes :=
  Array.ofFn fun i : Fin blockSize => f (number * blockSize + i)

/-- Stores a block, or drops it if it is all zero. -/
def putBlock (blocks : Blocks) (number : Nat) (block : Bytes) : Blocks :=
  if block.anyNonzero then blocks.insert number block else blocks.erase number

/-- Gives the `count` blocks from `first` on the contents that `f` describes. -/
def redraw (blocks : Blocks) (f : Nat → UInt8) (first count : Nat) : Blocks :=
  (List.range' first count).foldl (fun blocks k => putBlock blocks k (drawBlock f k)) blocks

theorem size_drawBlock (f : Nat → UInt8) (number : Nat) :
    (drawBlock f number).size = blockSize := by
  simp [drawBlock]

theorem getD_drawBlock (f : Nat → UInt8) (number i : Nat) (h : i < blockSize) :
    (drawBlock f number).getD i 0 = f (number * blockSize + i) := by
  simp [drawBlock, Array.getD, h]

theorem getD_of_anyNonzero_eq_false {block : Bytes} (h : block.anyNonzero = false) (i : Nat) :
    block.getD i 0 = 0 := by
  rw [Bytes.anyNonzero, Array.any_eq_false] at h
  by_cases hi : i < block.size
  · simpa [Array.getD, hi] using h i hi
  · simp [Array.getD, hi]

theorem stored_putBlock {blocks : Blocks} (h : Stored blocks) (number : Nat) {block : Bytes}
    (hsize : block.size = blockSize) : Stored (putBlock blocks number block) := by
  intro k b hb
  unfold putBlock at hb
  split at hb
  · rename_i hnz
    rw [Std.ExtTreeMap.getElem?_insert] at hb
    split at hb
    · cases hb; exact ⟨hsize, hnz⟩
    · exact h k b hb
  · rw [Std.ExtTreeMap.getElem?_erase] at hb
    split at hb
    · cases hb
    · exact h k b hb

theorem byteIn_putBlock (blocks : Blocks) (number : Nat) (block : Bytes) (position : Nat) :
    byteIn (putBlock blocks number block) position =
      if position / blockSize = number then block.getD (position % blockSize) 0
      else byteIn blocks position := by
  unfold putBlock
  by_cases hnz : block.anyNonzero
  · by_cases hk : position / blockSize = number
    · simp [byteIn, hnz, hk]
    · simp [byteIn, hnz, hk, Std.ExtTreeMap.getElem?_insert, Ne.symm hk]
  · by_cases hk : position / blockSize = number
    · simp [byteIn, hnz, hk, getD_of_anyNonzero_eq_false (Bool.eq_false_iff.mpr hnz)]
    · simp [byteIn, hnz, hk, Std.ExtTreeMap.getElem?_erase, Ne.symm hk]

theorem redraw_zero (blocks : Blocks) (f : Nat → UInt8) (first : Nat) :
    redraw blocks f first 0 = blocks := by
  simp [redraw]

theorem redraw_succ (blocks : Blocks) (f : Nat → UInt8) (first count : Nat) :
    redraw blocks f first (count + 1) =
      redraw (putBlock blocks first (drawBlock f first)) f (first + 1) count := by
  simp [redraw, List.range'_succ]

theorem stored_redraw (f : Nat → UInt8) (count : Nat) :
    ∀ {blocks : Blocks} (first : Nat), Stored blocks → Stored (redraw blocks f first count) := by
  induction count with
  | zero => intro blocks first h; rw [redraw_zero]; exact h
  | succ count ih =>
    intro blocks first h
    rw [redraw_succ]
    exact ih (first + 1) (stored_putBlock h first (size_drawBlock f first))

/-- A redrawn block holds what `f` says, every other block what it held. -/
theorem byteIn_redraw (f : Nat → UInt8) (count : Nat) :
    ∀ (blocks : Blocks) (first position : Nat),
      byteIn (redraw blocks f first count) position =
        if first ≤ position / blockSize ∧ position / blockSize < first + count then f position
        else byteIn blocks position := by
  induction count with
  | zero => intro blocks first position; rw [redraw_zero, if_neg (by omega)]
  | succ count ih =>
    intro blocks first position
    have hsplit := Nat.div_add_mod position blockSize
    rw [redraw_succ, ih, byteIn_putBlock]
    by_cases hk : position / blockSize = first
    · rw [if_neg (by omega), if_pos hk, if_pos (by omega),
        getD_drawBlock f first _ (Nat.mod_lt _ block_pos), ← hk, Nat.mul_comm, hsplit]
    · rw [if_neg hk]
      by_cases hin : first + 1 ≤ position / blockSize ∧ position / blockSize < first + 1 + count
      · rw [if_pos hin, if_pos (by omega)]
      · rw [if_neg hin, if_neg (by omega)]

/-! ## Operations -/

/-- No bytes at all. -/
def empty : Image where
  size := 0
  blocks := ∅
  stored := by intro k b h; simp at h
  zero_past := by intro p _; simp [byteIn]

instance : Inhabited Image := ⟨empty⟩

/-- The contents with `data` laid over the bytes from `offset` on. -/
def overlaid (blocks : Blocks) (offset : Nat) (data : Bytes) (position : Nat) : UInt8 :=
  if offset ≤ position ∧ position < offset + data.size then data.getD (position - offset) 0
  else byteIn blocks position

/-- The blocks that a write of `len` bytes at `offset` touches. -/
def touched (offset len : Nat) : Nat :=
  if len = 0 then 0 else (offset + len - 1) / blockSize - offset / blockSize + 1

/-- A position inside a write lies in a touched block. -/
theorem mem_touched {offset len position : Nat} (h₁ : offset ≤ position)
    (h₂ : position < offset + len) :
    offset / blockSize ≤ position / blockSize ∧
      position / blockSize < offset / blockSize + touched offset len := by
  have hlo : offset / blockSize ≤ position / blockSize := Nat.div_le_div_right h₁
  have hhi : position / blockSize ≤ (offset + len - 1) / blockSize :=
    Nat.div_le_div_right (by omega)
  unfold touched
  rw [if_neg (by omega)]
  omega

theorem byteIn_redraw_overlaid (blocks : Blocks) (offset : Nat) (data : Bytes) (position : Nat) :
    byteIn (redraw blocks (overlaid blocks offset data) (offset / blockSize)
      (touched offset data.size)) position = overlaid blocks offset data position := by
  rw [byteIn_redraw]
  split
  · rfl
  · rename_i hout
    unfold overlaid
    rw [if_neg]
    intro hin
    exact hout (mem_touched hin.1 hin.2)

/-- Writes `data` at `offset`; a gap between the old end and `offset` reads as zeros.
Even an empty write takes the end up to `offset`. -/
def write (image : Image) (offset : Nat) (data : Bytes) : Image where
  size := max image.size (offset + data.size)
  blocks := redraw image.blocks (overlaid image.blocks offset data) (offset / blockSize)
    (touched offset data.size)
  stored := stored_redraw _ _ _ image.stored
  zero_past := by
    intro p hp
    rw [byteIn_redraw_overlaid, overlaid, if_neg (by omega)]
    exact image.zero_past p (by omega)

/-- The `len` bytes from `offset` on, with zeros past the end. -/
def read (image : Image) (offset len : Nat) : Bytes :=
  Array.ofFn fun i : Fin len => image.byte (offset + i)

/-- The blocks below `size`, the last of them cut off at `size`. -/
def cutBlocks (blocks : Blocks) (size : Nat) : Blocks :=
  redraw (blocks.filter fun number _ => number * blockSize < size)
    (fun position => if position < size then byteIn blocks position else 0) (size / blockSize) 1

theorem byteIn_cutBlocks (blocks : Blocks) (size position : Nat) :
    byteIn (cutBlocks blocks size) position =
      if position < size then byteIn blocks position else 0 := by
  have hdiv := Nat.div_add_mod position blockSize
  have hmod := Nat.mod_lt position block_pos
  have hdiv' := Nat.div_add_mod size blockSize
  have hmod' := Nat.mod_lt size block_pos
  have hmono : position < size → position / blockSize ≤ size / blockSize :=
    fun h => Nat.div_le_div_right (Nat.le_of_lt h)
  have hmono' : size ≤ position → size / blockSize ≤ position / blockSize :=
    fun h => Nat.div_le_div_right h
  unfold cutBlocks
  rw [byteIn_redraw]
  by_cases hk : size / blockSize ≤ position / blockSize ∧ position / blockSize < size / blockSize + 1
  · rw [if_pos hk]
  · rw [if_neg hk]
    have hcomm : position / blockSize * blockSize = blockSize * (position / blockSize) :=
      Nat.mul_comm ..
    by_cases hlt : position < size
    · have hkeep : position / blockSize * blockSize < size := by omega
      rw [if_pos hlt]
      simp only [byteIn, Std.ExtTreeMap.getElem?_filter, Std.ExtTreeMap.getKey_eq]
      cases blocks[position / blockSize]? <;> simp [hkeep, Option.filter]
    · have hdrop : ¬ position / blockSize * blockSize < size := by
        have := hmono' (by omega)
        have hgt : size / blockSize + 1 ≤ position / blockSize := by omega
        have : blockSize * (size / blockSize + 1) ≤ blockSize * (position / blockSize) :=
          Nat.mul_le_mul_left _ hgt
        rw [Nat.mul_add] at this
        omega
      rw [if_neg hlt]
      simp only [byteIn, Std.ExtTreeMap.getElem?_filter, Std.ExtTreeMap.getKey_eq]
      cases blocks[position / blockSize]? <;> simp [hdrop, Option.filter]

theorem stored_cutBlocks {blocks : Blocks} (h : Stored blocks) (size : Nat) :
    Stored (cutBlocks blocks size) := by
  apply stored_redraw
  intro k b hb
  rw [Std.ExtTreeMap.getElem?_filter] at hb
  apply h k b
  cases hk : blocks[k]? with
  | none => simp [hk] at hb
  | some c =>
    simp only [hk, Option.pfilter_some] at hb
    split at hb
    · exact hb
    · cases hb

/-- Sets the length: what lies past it is gone, and new bytes are zero. -/
def resize (image : Image) (size : Nat) : Image where
  size := size
  blocks := if image.size ≤ size then image.blocks else cutBlocks image.blocks size
  stored := by
    split
    · exact image.stored
    · exact stored_cutBlocks image.stored size
  zero_past := by
    intro p hp
    split
    · exact image.zero_past p (by omega)
    · rw [byteIn_cutBlocks, if_neg (by omega)]

/-- `size` zero bytes. -/
def zeros (size : Nat) : Image := empty.resize size

/-- The stored blocks in order: the ones that hold a nonzero byte. -/
def nonzeroBlocks (image : Image) : List (Nat × Bytes) := image.blocks.toList

/-! ## The view -/

@[simp] theorem size_write (image : Image) (offset : Nat) (data : Bytes) :
    (image.write offset data).size = max image.size (offset + data.size) := rfl

@[simp] theorem byte_write (image : Image) (offset : Nat) (data : Bytes) (position : Nat) :
    (image.write offset data).byte position =
      if offset ≤ position ∧ position < offset + data.size then data.getD (position - offset) 0
      else image.byte position :=
  byteIn_redraw_overlaid image.blocks offset data position

theorem byte_write_zeros (image : Image) (offset len position : Nat) :
    (image.write offset (Bytes.zeros len)).byte position =
      if offset ≤ position ∧ position < offset + len then 0 else image.byte position := by
  rw [byte_write, Bytes.size_zeros, Bytes.getD_zeros]

theorem byte_eq_zero (image : Image) {position : Nat} (h : image.size ≤ position) :
    image.byte position = 0 := image.zero_past position h

@[simp] theorem size_resize (image : Image) (size : Nat) : (image.resize size).size = size := rfl

@[simp] theorem byte_resize (image : Image) (size position : Nat) :
    (image.resize size).byte position = if position < size then image.byte position else 0 := by
  change byteIn (if image.size ≤ size then image.blocks else cutBlocks image.blocks size) position = _
  by_cases h : image.size ≤ size
  · rw [if_pos h]
    split
    · rfl
    · exact image.zero_past position (by omega)
  · rw [if_neg h]
    exact byteIn_cutBlocks ..

@[simp] theorem size_empty : empty.size = 0 := rfl

@[simp] theorem byte_empty (position : Nat) : empty.byte position = 0 := by
  simp [byte, byteIn, empty]

@[simp] theorem size_zeros (size : Nat) : (zeros size).size = size := rfl

@[simp] theorem byte_zeros (size position : Nat) : (zeros size).byte position = 0 := by
  simp [zeros]

@[simp] theorem size_read (image : Image) (offset len : Nat) :
    (image.read offset len).size = len := by
  simp [read]

@[simp] theorem getElem_read (image : Image) (offset len i : Nat)
    (h : i < (image.read offset len).size) :
    (image.read offset len)[i] = image.byte (offset + i) := by
  simp [read]

/-- An absent block reads like one without bytes. -/
theorem getD_block (block : Option Bytes) (i : Nat) :
    (match block with | none => 0 | some bytes => bytes.getD i 0) = (block.getD #[]).getD i 0 := by
  cases block <;> rfl

/-- An image is its length and its bytes. -/
theorem ext_byte {a b : Image} (hsize : a.size = b.size)
    (hbyte : ∀ position, a.byte position = b.byte position) : a = b := by
  have hat : ∀ (k i : Nat), i < blockSize →
      (a.blocks[k]?.getD #[]).getD i 0 = (b.blocks[k]?.getD #[]).getD i 0 := by
    intro k i hi
    have h := hbyte (k * blockSize + i)
    have hdiv : (k * blockSize + i) / blockSize = k := by
      rw [Nat.mul_comm, Nat.mul_add_div block_pos, Nat.div_eq_of_lt hi, Nat.add_zero]
    have hmod : (k * blockSize + i) % blockSize = i := by
      rw [Nat.mul_comm, Nat.mul_add_mod, Nat.mod_eq_of_lt hi]
    simpa only [byte, byteIn, hdiv, hmod, getD_block] using h
  have hzero : ∀ {block : Bytes}, block.size = blockSize → block.anyNonzero = true →
      ∃ i, i < blockSize ∧ block.getD i 0 ≠ 0 := by
    intro block hs hnz
    rw [Bytes.anyNonzero, Array.any_eq_true] at hnz
    obtain ⟨i, hi, h⟩ := hnz
    exact ⟨i, hs ▸ hi, by simpa [Array.getD, hi] using h⟩
  have hblocks : a.blocks = b.blocks := by
    apply Std.ExtTreeMap.ext_getElem?
    intro k
    cases ha : a.blocks[k]? with
    | none =>
      cases hb : b.blocks[k]? with
      | none => rfl
      | some y =>
        obtain ⟨hs, hnz⟩ := b.stored k y hb
        obtain ⟨i, hi, hne⟩ := hzero hs hnz
        have := hat k i hi
        simp only [ha, hb, Option.getD_none, Option.getD_some] at this
        exact absurd this.symm (by simpa using hne)
    | some x =>
      obtain ⟨hs, hnz⟩ := a.stored k x ha
      cases hb : b.blocks[k]? with
      | none =>
        obtain ⟨i, hi, hne⟩ := hzero hs hnz
        have := hat k i hi
        simp only [ha, hb, Option.getD_none, Option.getD_some] at this
        exact absurd this (by simpa using hne)
      | some y =>
        have hs' := (b.stored k y hb).1
        congr 1
        apply Array.ext (hs.trans hs'.symm)
        intro i hi hi'
        have := hat k i (hs ▸ hi)
        simpa [ha, hb, Array.getD, hi, hi'] using this
  cases a; cases b
  simp only at hsize hblocks
  subst hsize hblocks
  rfl

end Image

end TwinRegion
