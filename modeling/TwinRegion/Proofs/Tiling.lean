/-
TwinRegion.Proofs.Tiling — a journal request is tiled by its extents.

`Tiles` says that runs follow each other in the journal and in the caller's
buffer, each inside one block. The extents of a request tile it
(`tiles_extentsFrom`), all of it if nothing overflows (`span_extentsFrom`,
`stop_extentsFrom`), and so does every leading part of them
(`Tiles.of_leading`).

`lay` writes the runs one after the other. Seen through the address map,
laying tiles is one flat write (`byte_lay`): the two addressings, linear
and by reversed blocks, agree on the bytes that reach the medium.
-/
import TwinRegion.Proofs.Address
import TwinRegion.Image

namespace TwinRegion.Partition

/-- The runs take up the journal from byte `logical` on and the buffer from byte
`start` on, one after the other. Only the last may end before its block does. -/
inductive Tiles (capacity : Nat) : Nat → Nat → List Extent → Prop where
  | nil {logical start : Nat} : Tiles capacity logical start []
  | cons {logical start len : Nat} {rest : List Extent} (hpos : 0 < len)
      (hblock : len ≤ blockSize - logical % blockSize)
      (hfull : rest ≠ [] → len = blockSize - logical % blockSize)
      (htail : Tiles capacity (logical + len) (start + len) rest) :
      Tiles capacity logical start (⟨place capacity logical, len, start⟩ :: rest)

/-- The bytes that runs hold together. -/
def span : List Extent → Nat
  | [] => 0
  | run :: rest => run.len + span rest

@[simp] theorem span_nil : span [] = 0 := rfl

@[simp] theorem span_cons (run : Extent) (rest : List Extent) :
    span (run :: rest) = run.len + span rest := by
  rw [span]

/-! ## The extents of a request -/

/-- The first run of a request and where the rest of it starts, unless that overflows. -/
theorem placed_eq {capacity logical start len address next nextInBuffer : Nat}
    (h : (do
      let address ← journalAddress capacity logical
      return (address, ← Word.add logical len, ← Word.add start len) :
        Except Failure (Nat × Nat × Nat)) = .ok (address, next, nextInBuffer)) :
    address = place capacity logical ∧ next = logical + len ∧ nextInBuffer = start + len := by
  simp only [bind_eq_ok_iff, Word.add_eq_ok_iff, pure, Except.pure, Except.ok.injEq,
    Prod.mk.injEq] at h
  obtain ⟨_, haddress, _, ⟨-, rfl⟩, _, ⟨-, rfl⟩, rfl, rfl, rfl⟩ := h
  exact ⟨journalAddress_eq haddress, rfl, rfl⟩

theorem extentsFrom_zero (capacity logical start : Nat) :
    extentsFrom capacity logical 0 start = ⟨[], none⟩ := by
  rw [extentsFrom, if_pos rfl]

theorem tiles_extentsFrom (capacity logical remaining start : Nat) :
    Tiles capacity logical start (extentsFrom capacity logical remaining start).runs := by
  fun_induction extentsFrom capacity logical remaining start with
  | case1 => exact .nil
  | case2 => exact .nil
  | case3 logical remaining start hne len placed address next nextInBuffer hplaced rest ih =>
    obtain ⟨rfl, rfl, rfl⟩ := placed_eq hplaced
    refine .cons (runLen_pos hne) (Nat.min_le_right ..) ?_ ih
    intro hrest
    have hmore : remaining - len ≠ 0 := by
      intro hdone
      exact hrest (by simp only [rest, hdone, extentsFrom_zero])
    simp only [len, runLen] at hmore ⊢
    omega

theorem tiles_extents (partition : Partition) (offset len : Nat) :
    Tiles partition.capacity offset 0 (partition.extents offset len).runs := tiles_extentsFrom ..

theorem span_extentsFrom_le (capacity logical remaining start : Nat) :
    span (extentsFrom capacity logical remaining start).runs ≤ remaining := by
  fun_induction extentsFrom capacity logical remaining start with
  | case1 => simp
  | case2 => simp
  | case3 logical remaining start hne len placed address next nextInBuffer hplaced rest ih =>
    have := runLen_le logical remaining
    simp only [span_cons, len, rest] at ih ⊢
    omega

/-- A request that nothing cuts short is tiled to its end. -/
theorem span_extentsFrom {capacity logical remaining start : Nat}
    (h : (extentsFrom capacity logical remaining start).stop = none) :
    span (extentsFrom capacity logical remaining start).runs = remaining := by
  fun_induction extentsFrom capacity logical remaining start with
  | case1 => rfl
  | case2 => simp at h
  | case3 logical remaining start hne len placed address next nextInBuffer hplaced rest ih =>
    have := runLen_le logical remaining
    have := ih h
    simp only [span_cons, len, rest] at this ⊢
    omega

/-- Nothing cuts a request short whose last block ends within 64 bits. -/
theorem stop_extentsFrom_of_lt_limit {capacity logical remaining start : Nat}
    (hcap : capacity ≤ Word.limit) (hlog : logical + remaining + blockSize ≤ Word.limit)
    (hstart : start + remaining < Word.limit) :
    (extentsFrom capacity logical remaining start).stop = none := by
  fun_induction extentsFrom capacity logical remaining start with
  | case1 => rfl
  | case2 logical remaining start hne len placed failure hplaced =>
    have hlen : len ≤ remaining := runLen_le logical remaining
    have hplace := journalAddress_of_lt_limit hcap (show logical + blockSize < Word.limit by omega)
    have hnext : Word.add logical len = .ok (logical + len) :=
      Word.add_eq_ok_iff.mpr ⟨by unfold blockSize at hlog; omega, rfl⟩
    have hbuffer : Word.add start len = .ok (start + len) :=
      Word.add_eq_ok_iff.mpr ⟨by omega, rfl⟩
    simp [placed, hplace, hnext, hbuffer, pure, Except.pure] at hplaced
  | case3 logical remaining start hne len placed address next nextInBuffer hplaced rest ih =>
    obtain ⟨rfl, rfl, rfl⟩ := placed_eq hplaced
    have hlen : len ≤ remaining := runLen_le logical remaining
    exact ih (by omega) (by omega)

/-- Nothing cuts a request short that ends at 2^63 or below. -/
theorem stop_extentsFrom {capacity logical remaining start : Nat} (hcap : capacity ≤ 1 <<< 63)
    (hlog : logical + remaining ≤ 1 <<< 63) (hstart : start + remaining ≤ 1 <<< 63) :
    (extentsFrom capacity logical remaining start).stop = none := by
  apply stop_extentsFrom_of_lt_limit <;> simp only [Word.limit, blockSize] <;> omega

/-! ## Leading parts -/

theorem Tiles.of_leading {capacity logical start : Nat} {runs leading : List Extent}
    (h : Tiles capacity logical start runs) (hpre : leading <+: runs) :
    Tiles capacity logical start leading := by
  induction h generalizing leading with
  | nil =>
    rw [List.prefix_nil.mp hpre]
    exact .nil
  | cons hpos hblock hfull _ ih =>
    cases leading with
    | nil => exact .nil
    | cons run more =>
      obtain ⟨rfl, hmore⟩ := List.cons_prefix_cons.mp hpre
      refine .cons hpos hblock (fun hne => hfull ?_) (ih hmore)
      rintro rfl
      exact hne (List.prefix_nil.mp hmore)

theorem span_le_of_leading {runs leading : List Extent} (h : leading <+: runs) :
    span leading ≤ span runs := by
  obtain ⟨rest, rfl⟩ := h
  induction leading with
  | nil => exact Nat.zero_le _
  | cons run more ih =>
    rw [List.cons_append, span_cons, span_cons]
    exact Nat.add_le_add_left ih _

/-- Every run of a tiling holds bytes of the request, and lies in one block of the journal. -/
theorem Tiles.exists_range {capacity logical start : Nat} {runs : List Extent}
    (h : Tiles capacity logical start runs) {run : Extent} (hrun : run ∈ runs) :
    ∃ at', logical ≤ at' ∧ at' + run.len ≤ logical + span runs ∧ 0 < run.len ∧
      run.address = place capacity at' ∧ run.len ≤ blockSize - at' % blockSize := by
  induction h with
  | nil => cases hrun
  | @cons logical start len rest hpos hblock _ _ ih =>
    rw [span_cons]
    rcases List.mem_cons.mp hrun with rfl | hrest
    · exact ⟨logical, Nat.le_refl _, by dsimp only; omega, hpos, rfl, hblock⟩
    · obtain ⟨at', hle, hlt, hsome, haddress, hlen⟩ := ih hrest
      exact ⟨at', by omega, by dsimp only; omega, hsome, haddress, hlen⟩

theorem Tiles.exists_logical {capacity logical start : Nat} {runs : List Extent}
    (h : Tiles capacity logical start runs) {run : Extent} (hrun : run ∈ runs) :
    ∃ at', run.address = place capacity at' ∧ run.len ≤ blockSize - at' % blockSize := by
  obtain ⟨at', -, -, -, hplace⟩ := h.exists_range hrun
  exact ⟨at', hplace⟩

/-- Every run of a journal request ends inside the blob. -/
theorem extents_bounds {partition : Partition} (h : blockSize ≤ partition.capacity)
    {offset len : Nat} {run : Extent} (hrun : run ∈ (partition.extents offset len).runs) :
    run.address + run.len ≤ partition.capacity := by
  obtain ⟨logical, haddress, hlen⟩ := (tiles_extentsFrom ..).exists_logical hrun
  rw [haddress]
  exact place_add_le h hlen

/-- Every byte of a tiling is at or above the start of its run. -/
theorem Tiles.exists_run {capacity logical start : Nat} {runs : List Extent}
    (h : Tiles capacity logical start runs) {p : Nat} (hle : logical ≤ p)
    (hlt : p < logical + span runs) : ∃ run ∈ runs, run.address ≤ place capacity p := by
  induction h with
  | nil =>
    rw [span_nil] at hlt
    omega
  | @cons logical start len rest _ hblock _ _ ih =>
    simp only [span_cons] at hlt
    by_cases hin : p < logical + len
    · have hplace := @place_add capacity logical (p - logical) (by omega)
      rw [Nat.add_sub_cancel' hle] at hplace
      have haddress : place capacity logical ≤ place capacity p := by omega
      exact ⟨_, List.mem_cons_self, haddress⟩
    · obtain ⟨run, hrun, haddress⟩ := ih (by omega) (by omega)
      exact ⟨run, List.mem_cons_of_mem _ hrun, haddress⟩

/-! ## Laying runs -/

/-- Writes the parts of `data` that runs hold to their places, one after the other. -/
def lay (data : Bytes) (image : Image) : List Extent → Image
  | [] => image
  | run :: rest =>
    lay data (image.write run.address (data.extract run.bufferStart (run.bufferStart + run.len))) rest

theorem size_extract_le (data : Bytes) (start len : Nat) :
    (data.extract start (start + len)).size ≤ len := by
  rw [Array.size_extract]
  omega

/-- Runs that end inside the image do not lengthen it. -/
theorem size_lay {data : Bytes} {image : Image} {runs : List Extent}
    (h : ∀ run ∈ runs, run.address + run.len ≤ image.size) :
    (lay data image runs).size = image.size := by
  induction runs generalizing image with
  | nil => rfl
  | cons run rest ih =>
    have hrun := h run List.mem_cons_self
    have hdata := size_extract_le data run.bufferStart run.len
    have hsize : (image.write run.address
        (data.extract run.bufferStart (run.bufferStart + run.len))).size = image.size := by
      rw [Image.size_write]
      omega
    rw [lay, ih, hsize]
    intro other hother
    rw [hsize]
    exact h other (List.mem_cons_of_mem _ hother)

/-- A byte that lies outside every run keeps its value. -/
theorem byte_lay_of_outside {data : Bytes} {image : Image} {runs : List Extent} {x : Nat}
    (h : ∀ run ∈ runs, x < run.address ∨ run.address + run.len ≤ x) :
    (lay data image runs).byte x = image.byte x := by
  induction runs generalizing image with
  | nil => rfl
  | cons run rest ih =>
    have hrun := h run List.mem_cons_self
    have hdata := size_extract_le data run.bufferStart run.len
    rw [lay, ih fun other hother => h other (List.mem_cons_of_mem _ hother), Image.byte_write,
      if_neg (by omega)]

/-- Seen through the address map, laying housed tiles is one flat write. -/
theorem byte_lay {capacity logical start : Nat} {runs : List Extent}
    (htiles : Tiles capacity logical start runs) (data : Bytes) (image : Image)
    (hdata : start + span runs ≤ data.size) (haddress : ∀ run ∈ runs, blockSize ≤ run.address)
    {p : Nat} (hp : Housed capacity p) :
    (lay data image runs).byte (place capacity p) =
      if logical ≤ p ∧ p < logical + span runs then data.getD (start + (p - logical)) 0
      else image.byte (place capacity p) := by
  induction htiles generalizing image with
  | nil => rw [if_neg (by simp only [span_nil]; omega)]; rfl
  | @cons logical start len rest hpos hblock _ _ ih =>
    simp only [span_cons] at hdata ⊢
    have hhoused : Housed capacity logical := housed_of_le_place (haddress _ List.mem_cons_self)
    have hsize : (data.extract start (start + len)).size = len := by
      rw [Array.size_extract]
      omega
    rw [lay, ih _ (by omega) fun run hrun => haddress run (List.mem_cons_of_mem _ hrun),
      Image.byte_write, hsize]
    by_cases hrest : logical + len ≤ p ∧ p < logical + len + span rest
    · rw [if_pos hrest, if_pos (by omega)]
      congr 1
      omega
    · rw [if_neg hrest]
      by_cases hin : logical ≤ p ∧ p < logical + len
      · rw [if_pos ((place_mem_run_iff hhoused hblock hp).mpr hin), if_pos (by omega)]
        have hplace := @place_add capacity logical (p - logical) (by omega)
        rw [Nat.add_sub_cancel' hin.1] at hplace
        have hindex : place capacity p - place capacity logical = p - logical := by omega
        simp only [hindex, Array.getD_eq_getD_getElem?, Array.getElem?_extract]
        rw [if_pos (by omega)]
      · rw [if_neg fun h => hin ((place_mem_run_iff hhoused hblock hp).mp h), if_neg (by omega)]

end TwinRegion.Partition
