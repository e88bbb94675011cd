/-
TwinRegion.Proofs.Reading — what reading a region gives.

No read changes what the medium holds (`ends_read`). One that lies inside
its region gives the bytes at the addresses of the request, from whichever
end of the blob the region grows (`ends_read_within`); one that does not is
refused with the region's length (`run_read_stopped`).
-/
import TwinRegion.Proofs.Ram
import TwinRegion.Proofs.Tiling
import TwinRegion.Blob.Transfer

namespace TwinRegion

/-- The bytes at the places of `len` positions from `offset` on. -/
def Image.gather (image : Image) (place : Nat → Nat) (offset len : Nat) : Bytes :=
  Array.ofFn fun i : Fin len => image.byte (place (offset + i))

namespace Image

@[simp] theorem size_gather (image : Image) (place : Nat → Nat) (offset len : Nat) :
    (image.gather place offset len).size = len := by
  simp [gather]

@[simp] theorem getElem_gather (image : Image) (place : Nat → Nat) (offset len i : Nat)
    (h : i < (image.gather place offset len).size) :
    (image.gather place offset len)[i] = image.byte (place (offset + i)) := by
  simp [gather]

/-- Images that agree at the places of a request give the same bytes there. -/
theorem gather_congr {a b : Image} {place : Nat → Nat} {offset len : Nat}
    (h : ∀ i < offset + len, a.byte (place i) = b.byte (place i)) :
    a.gather place offset len = b.gather place offset len := by
  apply Array.ext
  · simp
  · intro i h₁ h₂
    rw [size_gather] at h₁
    rw [getElem_gather, getElem_gather]
    exact h _ (Nat.add_lt_add_left h₁ offset)

theorem gather_zero (image : Image) (place : Nat → Nat) (offset : Nat) :
    image.gather place offset 0 = #[] := by
  simp [gather]

theorem gather_one (image : Image) (place : Nat → Nat) (offset : Nat) :
    image.gather place offset 1 = #[image.byte (place offset)] := by
  apply Array.ext
  · simp
  · intro i h₁ h₂
    obtain rfl : i = 0 := by simpa using h₂
    rw [getElem_gather]
    rfl

theorem gather_add (image : Image) (place : Nat → Nat) (offset m n : Nat) :
    image.gather place offset (m + n) =
      image.gather place offset m ++ image.gather place (offset + m) n := by
  apply Array.ext
  · simp
  · intro i h₁ h₂
    rw [getElem_gather, Array.getElem_append]
    split
    · simp
    · rename_i h
      simp only [size_gather] at h
      rw [getElem_gather, size_gather]
      congr 2
      omega

/-- Images that agree on a byte agree on it after the same write. -/
theorem byte_write_congr {a b : Image} {x : Nat} (h : a.byte x = b.byte x) (offset : Nat)
    (data : Bytes) : (a.write offset data).byte x = (b.write offset data).byte x := by
  rw [byte_write, byte_write, h]

theorem read_congr {a b : Image} {offset len : Nat}
    (h : ∀ x, offset ≤ x → x < offset + len → a.byte x = b.byte x) :
    a.read offset len = b.read offset len := by
  apply Array.ext
  · simp
  · intro i h₁ h₂
    have hi : i < len := by simpa using h₁
    rw [getElem_read, getElem_read, h _ (by omega) (by omega)]

/-- What was just written is read back. -/
theorem read_write (image : Image) (offset : Nat) (data : Bytes) :
    (image.write offset data).read offset data.size = data := by
  apply Array.ext
  · simp
  · intro i h₁ h₂
    rw [getElem_read, byte_write, if_pos (by omega), Nat.add_sub_cancel_left, Array.getD_eq_getD_getElem?,
      Array.getElem?_eq_getElem h₂, Option.getD_some]

/-- A flat read gathers from places that follow each other. -/
theorem read_eq_gather {image : Image} {place : Nat → Nat} {start offset len : Nat}
    (h : ∀ i < len, place (offset + i) = start + i) :
    image.read start len = image.gather place offset len := by
  apply Array.ext
  · simp
  · intro i h₁ h₂
    rw [getElem_read, getElem_gather, h i (by simpa using h₁)]

end Image

/-- A run that was just written, inside one block, is gathered again. -/
theorem Image.gather_write (image : Image) {capacity offset : Nat} {data : Bytes}
    (h : data.size ≤ blockSize - offset % blockSize) :
    (image.write (Partition.place capacity offset) data).gather (Partition.place capacity) offset
      data.size = data := by
  rw [← read_eq_gather fun i hi => Partition.place_add (by omega), read_write]

namespace Blob

open TwinRegion.Partition RamDisk

variable {partition : Partition} {disk : RamDisk}

/-! ## Reads -/

/-- Tiles that are read come into the buffer in the order of the journal. -/
theorem ends_readRuns {capacity logical start : Nat} {runs : List Extent}
    (htiles : Tiles capacity logical start runs) (len : Nat) (buffer : Bytes) (disk : RamDisk) :
    (readRuns len buffer runs : StepM RamDisk Bytes).Ends disk
      (fun bytes after =>
        bytes = buffer ++ disk.image.gather (place capacity) logical (span runs) ∧
          Became disk disk.image after)
      (fun _ after => Became disk disk.image after) := by
  induction htiles generalizing buffer disk with
  | nil => exact .pure ⟨by rw [span_nil, Image.gather_zero, Array.append_empty], .refl disk⟩
  | @cons logical start n rest _ hn _ _ ih =>
    have hbytes : disk.image.read (place capacity logical) n =
        disk.image.gather (place capacity) logical n :=
      Image.read_eq_gather fun i hi => place_add (by omega)
    refine .check_bind (fun _ _ => .refl disk) fun stop _ => ?_
    refine .ite (fun _ => .throw_bind (.refl disk)) fun _ => ?_
    refine (RamDisk.ends_read disk _ n).bind (fun _ _ h => h) ?_
    rintro bytes after ⟨rfl, hafter⟩
    refine (ih _ after).mono ?_ (fun _ _ h => hafter.still_trans h)
    rintro bytes last ⟨rfl, hlast⟩
    refine ⟨?_, hafter.still_trans hlast⟩
    rw [hafter.image_eq, hbytes, span_cons, Image.gather_add, Array.append_assoc]

/-- A read gives the bytes at the addresses of the request, if it gives any, and changes nothing
on the medium. -/
theorem ends_read (partition : Partition) (region : Region) (offset len : Nat) (disk : RamDisk) :
    (read partition region offset len : StepM RamDisk Bytes).Ends disk
      (fun bytes after =>
        bytes = disk.image.gather (address partition.capacity region) offset len ∧
          Became disk disk.image after)
      (fun _ after => Became disk disk.image after) := by
  refine .check_bind (fun _ _ => .refl disk) fun _ _ => .pure_bind ?_
  cases region with
  | database =>
    refine .check_bind (fun _ _ => .refl disk) fun at' hat => ?_
    obtain ⟨-, rfl⟩ := Word.add_eq_ok_iff.mp hat
    refine (RamDisk.ends_read disk _ len).mono ?_ (fun _ _ h => h)
    rintro bytes after ⟨rfl, hafter⟩
    exact ⟨Image.read_eq_gather fun i _ => by simp only [address]; omega, hafter⟩
  | journal =>
    refine (ends_readRuns (tiles_extentsFrom ..) len #[] disk).bind (fun _ _ h => h) ?_
    rintro bytes after ⟨rfl, hafter⟩
    refine .check_bind (fun _ _ => hafter) fun _ hfinish => .pure ⟨?_, hafter⟩
    rw [span_extentsFrom (stop_of_finish hfinish), Array.empty_append]
    rfl

/-- Tiles inside the medium are read, while reads work. -/
theorem ends_readRuns_within {capacity logical start len : Nat} {runs : List Extent}
    (htiles : Tiles capacity logical start runs) (buffer : Bytes) {disk : RamDisk}
    (hreads : disk.faults.reads = false) (hcap : capacity ≤ disk.image.size)
    (hblock : blockSize ≤ capacity) (hlim : capacity < Word.limit) (hlen : start + span runs ≤ len)
    (hlenlim : len < Word.limit) :
    (readRuns len buffer runs : StepM RamDisk Bytes).Ends disk (fun _ _ => True)
      (fun _ _ => False) := by
  induction htiles generalizing buffer disk with
  | nil => exact .pure trivial
  | @cons logical start n rest _ hn _ _ ih =>
    simp only [span_cons] at hlen
    have hadd : Word.add start n = .ok (start + n) := Word.add_eq_ok_iff.mpr ⟨by omega, rfl⟩
    have hin := place_add_le hblock hn
    refine .check_ok_bind hadd (.ite (fun h => absurd h (by omega)) fun _ => ?_)
    refine (RamDisk.ends_read_within hreads (Nat.le_trans hin hcap) (by omega)).bind
      (fun _ _ h => h.elim) ?_
    rintro bytes after ⟨-, hafter⟩
    exact ih _ (hafter.reads_eq.trans hreads) (hafter.image_eq ▸ hcap) (by omega)

/-- A read inside its region gives the bytes at the addresses of the request. -/
theorem ends_read_within {region : Region} {offset len : Nat}
    (hreads : disk.faults.reads = false) (hblock : blockSize ≤ partition.capacity)
    (hcap : partition.capacity ≤ disk.image.size) (hlim : partition.capacity < 1 <<< 63)
    (hdatabase : blockSize + partition.databaseSize ≤ partition.capacity)
    (hjournal : partition.journalSize < 1 <<< 63)
    (h : offset + len ≤ partition.regionSize region) :
    (read partition region offset len : StepM RamDisk Bytes).Ends disk
      (fun bytes after =>
        bytes = disk.image.gather (address partition.capacity region) offset len ∧
          Became disk disk.image after)
      (fun _ _ => False) := by
  have hsize : partition.regionSize region < 1 <<< 63 := by
    cases region with
    | database => exact Nat.lt_of_le_of_lt (by simp only [regionSize]; omega) hlim
    | journal => exact hjournal
  have hguard : partition.guardRead region offset len = .ok () :=
    guardRead_eq_ok_iff.mpr ⟨Word.lt_limit_of_lt_half (by omega), h⟩
  refine (ends_read partition region offset len disk).of_no_failure ?_
  refine .check_ok_bind hguard (.pure_bind ?_)
  cases region with
  | database =>
    simp only [regionSize] at h
    have haddress : databaseAddress offset = .ok (blockSize + offset) :=
      Word.add_of_lt_half (by omega)
    refine .check_ok_bind haddress ?_
    exact (RamDisk.ends_read_within hreads (by omega) (Word.lt_limit_of_lt_half (by omega))).mono
      (fun _ _ _ => trivial) fun _ _ h => h
  | journal =>
    simp only [regionSize] at h
    have hstop : (partition.extents offset len).stop = none :=
      stop_extentsFrom (Nat.le_of_lt hlim) (by omega) (by omega)
    have hspan : span (partition.extents offset len).runs = len := span_extentsFrom hstop
    have hfinish : finish (partition.extents offset len) = .ok () := by rw [finish, hstop]
    refine (ends_readRuns_within (tiles_extentsFrom ..) #[] hreads hcap hblock
      (Word.lt_limit_of_lt_half hlim) (by rw [← extents, hspan]; omega)
      (Word.lt_limit_of_lt_half (by omega))).bind (fun _ _ h => h) fun bytes after _ => ?_
    exact .check_ok_bind hfinish (.pure trivial)

/-- A read that its guard stops leaves the medium alone. -/
theorem run_read_stopped {region : Region} {offset len : Nat} {e : Failure}
    (h : partition.guardRead region offset len = .error e) :
    (read partition region offset len : StepM RamDisk Bytes).run disk = .error e disk := by
  simp [read, h]

end Blob

end TwinRegion
