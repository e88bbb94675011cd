/-
TwinRegion.Proofs.Removal — a journal that was removed stays away.

Removing a journal zeroes the mark, and that commits: a crash afterwards
finds no journal. Of the writes that can follow, only those of journal bytes
508 to 511 have their home in the mark. A database write ends a block below
it, because of the ceiling, once the blob has ten kilobytes; and the other
bytes of the journal have other homes. So the mark stays zero
(`unmarked_run`), and an opening on any device that still holds the contents
finds the blob without a journal (`removed_journal_stays_away`).

That the opening finds a blob at all rests on what every deed preserves from
the first opening on: the contents have the length of the blob, and a size
word that fits (`FileBody.Bears`).
-/
import TwinRegion.Proofs.Erasure
import TwinRegion.Proofs.Window

namespace TwinRegion

open StepM Vfs TwinRegion.Partition RamDisk

/-! ## Places -/

namespace Partition

/-- The run lies between the header block and the mark. -/
def Clear (capacity offset len : Nat) : Prop :=
  blockSize ≤ offset ∧ offset + len ≤ capacity - wordSize

variable {partition : Partition} {offset len : Nat}

theorem Clear.within (h : Clear partition.capacity offset len) :
    Within partition.capacity offset len := ⟨h.1, Nat.le_trans h.2 (Nat.sub_le ..)⟩

/-- The ceiling keeps the database off the mark. -/
theorem clear_of_guard (hlong : 10240 ≤ partition.capacity)
    (hguard : partition.guardDatabaseWrite offset len = .ok ()) :
    Clear partition.capacity (blockSize + offset) len := by
  obtain ⟨-, -, -, hceiling, -⟩ := guardDatabaseWrite_eq_ok_iff.mp hguard
  unfold databaseCeiling at hceiling
  unfold Clear blockSize wordSize
  omega

/-- Journal bytes other than those of the mark have their homes below it. -/
theorem clear_of_spared (hlong : 2 * blockSize ≤ partition.capacity)
    (hspared : ∀ i, blockSize - wordSize ≤ i → i < blockSize → ¬ (offset ≤ i ∧ i < offset + len))
    {run : Extent} (hrun : run ∈ (partition.extents offset len).runs)
    (habove : blockSize ≤ run.address) {count : Nat} (hcount : count ≤ run.len) :
    Clear partition.capacity run.address count := by
  obtain ⟨logical, hle, hlt, hsome, haddress, hblock⟩ := (tiles_extentsFrom ..).exists_range hrun
  have hspan := span_extentsFrom_le partition.capacity offset len 0
  refine ⟨habove, ?_⟩
  by_cases hfirst : logical < blockSize
  · have hlast := hspared (logical + run.len - 1)
    unfold place at haddress
    unfold blockSize wordSize at *
    omega
  · unfold place at haddress
    unfold blockSize wordSize at *
    omega

end Partition

/-! ## Contents -/

namespace FileBody

open Blob

/-- An opening finds a blob of this capacity. Of device files, those that are not full are taken
for empty. -/
def Bears (capacity : Nat) : FileBody → Prop
  | .regular image => Mountable image ∧ (found image).capacity = capacity
  | .null => True
  | .full => False

/-- The mark of a blob of this capacity is zero. -/
def Unmarked (capacity : Nat) (body : FileBody) : Prop :=
  ∀ i < wordSize, body.image.byte (capacity - wordSize + i) = 0

variable {capacity databaseSize offset : Nat} {image : Image} {data : Bytes}

theorem Bears.long (h : Bears capacity (.regular image)) :
    2 * blockSize ≤ capacity ∧ capacity ≤ standardCapacity ∧ capacity ≤ image.size := by
  obtain ⟨⟨hlong, -⟩, rfl⟩ := h
  exact ⟨Nat.le_min.mpr ⟨hlong, by decide⟩, Nat.min_le_right .., Nat.min_le_left ..⟩

/-- Writes behind the header block and inside the blob do not hide it. -/
theorem Bears.write_within (h : Bears capacity (.regular image))
    (hwithin : Within capacity offset data.size) :
    Bears capacity (.regular (image.write offset data)) := by
  obtain ⟨-, -, hsize⟩ := h.long
  obtain ⟨⟨hlong, hfits⟩, hcapacity⟩ := h
  have hlength : (image.write offset data).size = image.size := by
    rw [Image.size_write]
    exact Nat.max_eq_left (Nat.le_trans hwithin.2 hsize)
  have hword : (image.write offset data).read 0 wordSize = image.read 0 wordSize := by
    have hwords : wordSize ≤ blockSize := by decide
    refine Image.read_congr fun x _ hx => ?_
    rw [Image.byte_write, if_neg fun hin => ?_]
    have := hwithin.1
    omega
  have hsame : (found (image.write offset data)).capacity = (found image).capacity := by
    simp only [found, hlength]
  refine ⟨⟨by rwa [hlength], ?_⟩, hsame.trans hcapacity⟩
  rw [hsame]
  simpa only [found, hword] using hfits

/-- Neither does a size word that fits. -/
theorem Bears.write_word (h : Bears capacity (.regular image))
    (hfits : databaseSize + blockSize ≤ capacity) :
    Bears capacity (.regular (image.write 0 (sizeWord databaseSize))) := by
  obtain ⟨-, hstandard, hsize⟩ := h.long
  obtain ⟨⟨hlong, -⟩, hcapacity⟩ := h
  have hwords : wordSize ≤ blockSize := by decide
  have hlength : (image.write 0 (sizeWord databaseSize)).size = image.size := by
    rw [Image.size_write, Blob.size_sizeWord]
    exact Nat.max_eq_left (by omega)
  have hsmall : databaseSize < 1 <<< 32 := by
    have hle : databaseSize ≤ standardCapacity := by omega
    exact Nat.lt_of_le_of_lt hle (by decide)
  have hsame : (found (image.write 0 (sizeWord databaseSize))).capacity = (found image).capacity := by
    simp only [found, hlength]
  have hword : sizeOfWord ((image.write 0 (sizeWord databaseSize)).read 0 wordSize) =
      databaseSize := Live.sizeOfWord_write hsmall
  refine ⟨⟨by rwa [hlength], ?_⟩, hsame.trans hcapacity⟩
  rw [hsame, hcapacity]
  simpa only [found, hword] using hfits

theorem Unmarked.write (h : Unmarked capacity (.regular image))
    (houtside : offset + data.size ≤ capacity - wordSize) :
    Unmarked capacity (.regular (image.write offset data)) := by
  intro i hi
  show (image.write offset data).byte (capacity - wordSize + i) = 0
  rw [Image.byte_write, if_neg (by omega)]
  exact h i hi

theorem unmarked_write_zeros (image : Image) (capacity : Nat) :
    Unmarked capacity (.regular (image.write (capacity - wordSize) (Bytes.zeros wordSize))) := by
  intro i hi
  show (image.write (capacity - wordSize) (Bytes.zeros wordSize)).byte (capacity - wordSize + i) = 0
  rw [Image.byte_write_zeros, if_pos (by omega)]

end FileBody

/-! ## Requests -/

namespace Attached

open FileBody

variable {origin : String ⊕ Nat} {held kept : FileBody → Prop} {capacity : Nat}
  {partition : Partition}

theorem preserves_sync_holding
    (hword : ∀ image, held (.regular image) →
      held (.regular (image.write 0 (sizeWord partition.databaseSize))))
    (region : Region) (flags : Int32) :
    Preserves (Holding origin held) (Blob.sync partition region flags : StepM Attached Unit) := by
  have hsync : ∀ level, Preserves (Holding origin held) (Disk.sync level : StepM Attached Unit) :=
    fun level a h => (ends_sync_holding level h).reached
  cases region with
  | database =>
    have hlim : 0 + wordSize < Word.limit := by decide
    exact (preserves_write_holding hlim hword).bind fun _ => hsync _
  | journal => exact hsync _

/-- An erasure that succeeds has zeroed the mark last. -/
theorem ends_eraseJournal_holding (hlong : 2 * blockSize ≤ partition.capacity)
    (hcapacity : partition.capacity ≤ standardCapacity)
    (hbears : ∀ body, held body → Bears partition.capacity body)
    (hhead : ∀ image, held (.regular image) →
      held (.regular (image.write (partition.capacity - blockSize) (Bytes.zeros wordSize))))
    {a : Attached} (h : Holding origin held a) :
    (Blob.eraseJournal partition : StepM Attached Partition).Ends a
      (fun _ => Holding origin fun body =>
        Bears partition.capacity body ∧ Unmarked partition.capacity body)
      (fun _ => Holding origin held) := by
  have hsize : (Bytes.zeros wordSize).size = wordSize := Bytes.size_zeros _
  have hwords : wordSize ≤ blockSize := by decide
  have hlimit : partition.capacity < Word.limit := Nat.lt_of_le_of_lt hcapacity (by decide)
  have hmark : ∀ image, held (.regular image) → ∀ body,
      body = .regular (image.write (partition.capacity - wordSize) (Bytes.zeros wordSize)) →
        Bears partition.capacity body ∧ Unmarked partition.capacity body := by
    rintro image himage _ rfl
    have hwithin : Within partition.capacity (partition.capacity - wordSize)
        (Bytes.zeros wordSize).size := ⟨by omega, by omega⟩
    exact ⟨(hbears _ himage).write_within hwithin, unmarked_write_zeros image partition.capacity⟩
  have hready : (Disk.ready : StepM Attached Unit).Ends a (fun _ => Holding origin held)
      (fun _ => Holding origin held) :=
    .get_bind (.ite (fun _ => .refuse h) fun _ => .pure h)
  refine hready.bind (fun _ _ h => h) fun _ a h => .check_bind (fun _ _ => h) fun head hplace => ?_
  obtain ⟨-, rfl⟩ := Word.sub_eq_ok_iff.mp hplace
  refine (Ends.of_reached (preserves_write_holding (by omega) hhead a h)).bind (fun _ _ h => h)
    fun _ a h => .check_bind (fun _ _ => h) fun mark hplace => ?_
  obtain ⟨-, rfl⟩ := Word.sub_eq_ok_iff.mp hplace
  refine (ends_write_holding (by omega) (fun image himage => hmark image himage _ rfl)
    (fun body hbody => ?_) h).bind (fun _ _ h => h) fun _ _ h => .pure h
  cases body with
  | regular image => exact hmark image hbody _ rfl
  | null => exact ⟨trivial, fun i _ => Image.byte_empty _⟩
  | full => exact (hbears .full hbody).elim

/-- On the way to the mark, an erasure zeroes a word that hides nothing. -/
theorem bears_write_head {image : Image} (hlong : 2 * blockSize ≤ capacity)
    (h : Bears capacity (.regular image)) :
    Bears capacity (.regular (image.write (capacity - blockSize) (Bytes.zeros wordSize))) := by
  have hwords : wordSize ≤ blockSize := by decide
  refine h.write_within ⟨by omega, ?_⟩
  rw [Bytes.size_zeros]
  omega

end Attached

namespace Request

open Attached FileBody

variable {origin : String ⊕ Nat} {capacity : Nat} {partition : Partition}

/-- The request writes none of the four journal bytes that are the mark. -/
def Spares : Request → Prop
  | .write handle offset data => handle.region = .journal →
    ∀ i, blockSize - wordSize ≤ i → i < blockSize → ¬ (offset ≤ i ∧ i < offset + data.size)
  | _ => True

theorem preserves_bears (hfits : partition.Fits capacity) (hlong : 2 * blockSize ≤ capacity)
    (hcapacity : capacity ≤ standardCapacity) (request : Request) :
    Preserves (Holding origin (Bears capacity)) (request.onDevice partition) := by
  obtain ⟨rfl, hroom⟩ := hfits
  have hkeeps : Disk.Keeps (Holding origin (Bears partition.capacity))
      (Within partition.capacity) := by
    refine keeps_holding (fun offset len hwithin => ?_) fun image offset data hwithin h =>
      h.write_within hwithin
    exact Nat.lt_of_le_of_lt (Nat.le_trans hwithin.2 hcapacity) (by decide)
  cases request with
  | read handle offset len =>
    exact (Blob.preserves_read hkeeps partition handle.region offset len).discard
  | write handle offset data =>
    exact (Blob.preserves_write hkeeps (Nat.le_trans (by decide) hlong) handle.region offset
      data).discard
  | truncate handle size => exact preserves_pure ()
  | sync handle flags =>
    exact preserves_sync_holding (fun _ h => h.write_word hroom) handle.region flags
  | remove path => exact (Blob.preserves_eraseJournal hkeeps hlong).discard
  | setFaults medium faults => exact preserves_pure ()

/-- On a blob of some size, a request that spares the mark leaves it zero. -/
theorem preserves_unmarked (hfits : partition.Fits capacity) (hlong : 10240 ≤ capacity)
    (hcapacity : capacity ≤ standardCapacity) {request : Request} (hspares : request.Spares) :
    Preserves (Holding origin fun body => Bears capacity body ∧ Unmarked capacity body)
      (request.onDevice partition) := by
  obtain ⟨rfl, hroom⟩ := hfits
  have hblocks : 2 * blockSize ≤ partition.capacity := Nat.le_trans (by decide) hlong
  have hwords : wordSize ≤ blockSize := by decide
  have hkeeps : Disk.Keeps (Holding origin fun body =>
      Bears partition.capacity body ∧ Unmarked partition.capacity body)
      (Clear partition.capacity) := by
    refine keeps_holding (fun offset len hclear => ?_) fun image offset data hclear h =>
      ⟨h.1.write_within hclear.within, h.2.write hclear.2⟩
    exact Nat.lt_of_le_of_lt (Nat.le_trans hclear.within.2 hcapacity) (by decide)
  cases request with
  | read handle offset len =>
    exact (Blob.preserves_read hkeeps partition handle.region offset len).discard
  | write handle offset data =>
    refine (Blob.preserves_write_admitted hkeeps (fun _ hguard => clear_of_guard hlong hguard)
      fun hjournal run hrun habove len hlen => ?_).discard
    exact clear_of_spared hblocks (hspares hjournal) hrun (by omega) hlen
  | truncate handle size => exact preserves_pure ()
  | sync handle flags =>
    refine preserves_sync_holding (fun _ h => ⟨h.1.write_word hroom, h.2.write ?_⟩) handle.region
      flags
    rw [Blob.size_sizeWord]
    omega
  | remove path =>
    refine Preserves.discard fun a h => (ends_eraseJournal_holding hblocks hcapacity
      (fun _ h => h.1) (fun image h => ⟨bears_write_head hblocks h.1, h.2.write ?_⟩) h).reached
    rw [Bytes.size_zeros]
    have : 2 * wordSize ≤ blockSize := by decide
    omega
  | setFaults medium faults => exact preserves_pure ()

end Request

/-! ## Openings -/

namespace Device

open Attached FileBody Blob

variable {capacity : Nat} {world : World} {device : Device}

/-! ### Files at hand -/

/-- The device is a steady opening of this file, which has these bytes. -/
def AtHand (number : Nat) (image : Image) (a : Attached) : Prop :=
  ∃ handle, a.device = some (.file handle) ∧ handle.number = number ∧
    (a.world.fileDisk handle).Steady ∧ (a.world.fileDisk handle).body = .regular image

theorem AtHand.holding {number : Nat} {image : Image} {held : FileBody → Prop} {a : Attached}
    (h : AtHand number image a) (hheld : held (.regular image)) :
    Holding (.inr number) held a := by
  obtain ⟨handle, hdevice, rfl, hsteady, hbody⟩ := h
  exact holding_file hdevice hsteady (hbody ▸ hheld)

/-- The words of a file at hand can be read, and the world stays as it is. -/
theorem ends_read_atHand {number : Nat} {image : Image} (offset : Nat) (a : Attached)
    (hin : offset + wordSize ≤ image.size) (hstandard : offset ≤ standardCapacity)
    (h : AtHand number image a ∧ a.world = world) :
    (Disk.read offset wordSize : StepM Attached Bytes).Ends a
      (fun bytes a' => bytes = image.read offset wordSize ∧ AtHand number image a' ∧
        a'.world = world)
      (fun _ _ => False) := by
  obtain ⟨⟨handle, hdevice, rfl, hsteady, hbody⟩, rfl⟩ := h
  have hlim : offset + wordSize < FileDisk.positionLimit := by
    have hlimit : standardCapacity + wordSize < FileDisk.positionLimit := by decide
    omega
  have hword : 0 < wordSize := by decide
  refine (ends_call_file hdevice (FileDisk.ends_read_within hsteady hbody hin hlim)).mono ?_ ?_
  · rintro bytes _ ⟨disk, rfl, hbytes, hbecame⟩
    have hnumber : disk.handle.number = handle.number := hbecame.number_eq
    have hthere : disk.body = .regular image := hbecame.body_eq.trans hbody
    refine ⟨hbytes, ⟨disk.handle, rfl, hnumber, ?_, ?_⟩, World.setFileDisk_of_same ?_⟩
    · rw [World.fileDisk_setFileDisk]
      exact hbecame.steady
    · rw [World.fileDisk_setFileDisk, hthere]
    · rw [hnumber, hthere]
      exact FileStore.bodies_of_body hbody (by omega)
  · rintro e _ ⟨_, _, hfalse⟩
    exact hfalse

theorem atHand_of_fresh {handle : FileHandle} {image : Image} (hfresh : (file handle).Fresh world)
    (hbody : world.files.body handle.number = .regular image) :
    AtHand handle.number image ⟨some (.file handle), world⟩ ∧
      Disk.length (⟨some (.file handle), world⟩ : Attached) = image.size := by
  refine ⟨⟨handle, rfl, rfl, hfresh.1, hbody⟩, ?_⟩
  have hlength := hfresh.2
  rw [hbody] at hlength
  exact hlength

/-! ### The first opening -/

/-- A whole blob of zeros is found on what was empty. -/
theorem bears_blank {image : Image} (hempty : image.size = 0) :
    Bears standardCapacity (.regular (image.write (standardCapacity - 1) #[0])) := by
  have hblocks : 2 * blockSize ≤ standardCapacity := by decide
  have hfound : found (.zeros standardCapacity) = .blank standardCapacity := by
    rw [found_zeros, Nat.min_self]
  rw [grown_eq_zeros hempty]
  refine ⟨mountable_of_blank hblocks ?_, by rw [hfound]; rfl⟩
  exact found_zeros standardCapacity

theorem fits_found {image : Image} (h : Mountable image) :
    Bears (found image).capacity (.regular image) ∧ (found image).Fits (found image).capacity :=
  ⟨⟨h, rfl⟩, rfl, h.2⟩

theorem ends_readPartition_regular {handle : FileHandle} {image : Image}
    (hfresh : (file handle).Fresh world)
    (hbody : world.files.body handle.number = .regular image) (name : String) :
    (readPartition name : StepM Attached Partition).Ends ⟨some (.file handle), world⟩
      (fun partition a => Holding (.inr handle.number) (Bears partition.capacity) a ∧
        partition.Fits partition.capacity) (fun _ _ => True) := by
  obtain ⟨hthere, hlength⟩ := atHand_of_fresh hfresh hbody
  refine .get_bind (.ite (fun hempty => ?_) fun _ => ?_)
  · rw [hlength] at hempty
    have hlim : standardCapacity - 1 + (#[0] : Bytes).size < Word.limit := by decide
    have hstart : Holding (.inr handle.number) (· = .regular image) ⟨some (.file handle), world⟩ :=
      hthere.holding rfl
    refine (ends_write_holding hlim (fun other hother => ?_) (fun body hother => ?_) hstart).bind
      (fun _ _ _ => trivial) fun _ _ h => .pure ⟨h, rfl, by decide⟩
    · cases hother
      exact bears_blank hempty
    · rw [hother]
      exact bears_blank hempty
  · rw [hlength]
    refine .check_bind (fun _ _ => trivial) fun capacity hcapacity => ?_
    obtain ⟨hlong, rfl⟩ := usable_eq_ok_iff.mp hcapacity
    refine ends_words ends_read_atHand hlong (fun a ha => ?_) ⟨hthere, rfl⟩
    refine .check (fun partition hpartition => ?_) fun _ _ => trivial
    obtain ⟨hmountable, rfl⟩ := (ofWords_found hlong).mp hpartition
    obtain ⟨hbears, hfits⟩ := fits_found hmountable
    exact ⟨ha.1.holding hbears, hfits⟩

/-- A device file is taken for empty, and what is written to make it a blob tells whether it is
full. -/
theorem ends_readPartition_device {handle : FileHandle} (hfresh : (file handle).Fresh world)
    (hbody : world.files.body handle.number = .null ∨ world.files.body handle.number = .full)
    (name : String) :
    (readPartition name : StepM Attached Partition).Ends ⟨some (.file handle), world⟩
      (fun partition a => partition = .blank standardCapacity ∧
        world.files.body handle.number = .null ∧ Holding (.inr handle.number) (· = .null) a)
      (fun _ _ => world.files.body handle.number = .full) := by
  have hempty : Disk.length (⟨some (.file handle), world⟩ : Attached) = 0 := by
    have hlength := hfresh.2
    rcases hbody with hnull | hfull
    · rw [hnull] at hlength
      exact hlength
    · rw [hfull] at hlength
      exact hlength
  refine .get_bind (.ite (fun _ => ?_) fun hsome => absurd hempty hsome)
  have hlim : standardCapacity - 1 + (#[0] : Bytes).size < Word.limit := by decide
  have hstart : Holding (.inr handle.number) (· = world.files.body handle.number)
      ⟨some (.file handle), world⟩ := holding_file rfl hfresh.1 rfl
  have hwrites : (Disk.write (standardCapacity - 1) #[0] : StepM Attached Unit).Ends
      ⟨some (.file handle), world⟩ (fun _ _ => world.files.body handle.number = .null)
      (fun _ _ => world.files.body handle.number = .full) := by
    rcases hbody with hnull | hfull
    · have hcall : (focusFile handle (FileDisk.write (standardCapacity - 1) #[0])).Ends
          ⟨some (.file handle), world⟩ _ _ := Ends.focus (FileDisk.ends_write_null hnull hlim)
      refine (hcall.mono (fun _ _ _ => hnull) ?_).of_run_eq rfl
      rintro e _ ⟨_, _, hfalse⟩
      exact hfalse.elim
    · have hcall : (focusFile handle (FileDisk.write (standardCapacity - 1) #[0])).Ends
          ⟨some (.file handle), world⟩ _ _ := Ends.focus (FileDisk.ends_write_full hfull rfl)
      refine (hcall.mono ?_ (fun _ _ _ => hfull)).of_run_eq rfl
      rintro _ _ ⟨_, _, hfalse⟩
      exact hfalse.elim
  have hholds := preserves_write_holding hlim (fun image himage => ?_) _ hstart
  · refine (hwrites.traced).bind (fun _ _ h => h.2.2) ?_
    rintro _ _ ⟨-, rfl, hnull⟩
    refine .pure ⟨rfl, hnull, hholds.mono fun body hsame => ?_⟩
    exact hsame.trans hnull
  · rcases hbody with hnull | hfull
    · cases himage.trans hnull
    · cases himage.trans hfull

/-- A blob that was mounted on a fresh device is there. -/
theorem ends_mount_bears (hfresh : device.Fresh world) (name : String) :
    (Blob.mount name : StepM Attached Partition).Ends ⟨some device, world⟩
      (fun partition a => Holding device.origin (Bears partition.capacity) a ∧
        partition.Fits partition.capacity) (fun _ _ => True) := by
  cases device with
  | ram medium =>
    have hon : Attached.On medium ⟨some (.ram medium), world⟩ (world.medium medium) := ⟨rfl, rfl⟩
    cases Blob.alike_mount (Attached.matches_on medium) Attached.alike_close name hon with
    | @ok partition a disk hfar hnear h =>
      obtain ⟨hanswer, hreached⟩ := run_eq_ok_iff.mp hnear
      have hends := (Blob.ends_mount name (world.medium medium)).value _ hanswer
      rw [hreached] at hends
      have hfound : Bears partition.capacity (.regular disk.image) ∧
          partition.Fits partition.capacity := by
        rcases hends with ⟨hempty, rfl, hdisk⟩ | ⟨hmountable, rfl, hdisk⟩
        · rw [hdisk.image_eq]
          exact ⟨bears_blank hempty, rfl, by decide⟩
        · rw [hdisk.image_eq]
          exact fits_found hmountable
      obtain ⟨hdevice, rfl⟩ := h
      exact .of_run_ok hfar ⟨holding_ram hdevice hfound.1, hfound.2⟩
    | error hfar hnear h => exact .of_run_error hfar trivial
  | file handle =>
    refine Blob.ends_mount_of_read ?_
    cases hbody : world.files.body handle.number with
    | regular image => exact ends_readPartition_regular hfresh hbody name
    | null =>
      refine (ends_readPartition_device hfresh (.inl hbody) name).mono ?_ fun _ _ _ => trivial
      rintro _ a ⟨rfl, -, hholding⟩
      exact ⟨hholding.mono fun _ hnull => hnull ▸ trivial, rfl, by decide⟩
    | full =>
      refine (ends_readPartition_device hfresh (.inr hbody) name).mono ?_ fun _ _ _ => trivial
      rintro _ a ⟨-, hnull, -⟩
      cases hbody.symm.trans hnull

/-! ### The next opening -/

/-- Reads of the device do not fail; those of a file never do inside it. -/
def Works (world : World) : Device → Prop
  | .ram name => (world.medium name).faults.reads = false
  | .file _ => True

theorem journalSize_found {image : Image} (h : Bears capacity (.regular image))
    (hunmarked : Unmarked capacity (.regular image)) : (found image).journalSize = 0 := by
  obtain ⟨-, rfl⟩ := h
  have hsize : (image.read ((found image).capacity - wordSize) wordSize).size = wordSize :=
    Image.size_read ..
  have hmark : isMarked (image.read ((found image).capacity - wordSize) wordSize) = false := by
    rw [← Bool.not_eq_true, Live.isMarked_iff hsize]
    rintro ⟨i, hi, hne⟩
    refine hne ?_
    have hbyte : image.byte ((found image).capacity - wordSize + i) = 0 := hunmarked i hi
    simpa [Array.getD, hi] using hbyte
  have hjournal : (found image).journalSize =
      if isMarked (image.read ((found image).capacity - wordSize) wordSize) then
        (found image).capacity else 0 := rfl
  rw [hjournal, hmark]
  rfl

/-- A blob that is there and has no mark opens, and without a journal. -/
theorem ends_mount_unmarked (hfresh : device.Fresh world) (hworks : device.Works world)
    (hbears : Bears capacity (world.contents device.origin))
    (hunmarked : Unmarked capacity (world.contents device.origin)) (name : String) :
    (Blob.mount name : StepM Attached Partition).Ends ⟨some device, world⟩
      (fun partition _ => partition.journalSize = 0) (fun _ _ => False) := by
  cases device with
  | ram medium =>
    have hon : Attached.On medium ⟨some (.ram medium), world⟩ (world.medium medium) := ⟨rfl, rfl⟩
    have hrun := run_mount_within name hworks hbears.1
    cases Blob.alike_mount (Attached.matches_on medium) Attached.alike_close name hon with
    | ok hfar hnear h =>
      obtain ⟨rfl, -⟩ := EStateM.Result.ok.inj (hnear.symm.trans hrun)
      exact .of_run_ok hfar (journalSize_found hbears hunmarked)
    | error hfar hnear h => cases hnear.symm.trans hrun
  | file handle =>
    have hcontents : world.contents (Device.file handle).origin = world.files.body handle.number := rfl
    rw [hcontents] at hbears hunmarked
    cases hbody : world.files.body handle.number with
    | regular image =>
      rw [hbody] at hbears hunmarked
      obtain ⟨hthere, hlength⟩ := atHand_of_fresh hfresh hbody
      refine (ends_mount_of_words ends_read_atHand name hbears.1 hlength ⟨hthere, rfl⟩).mono ?_
        fun _ _ h => h
      rintro _ _ rfl
      exact journalSize_found hbears hunmarked
    | null =>
      refine (ends_readPartition_device hfresh (.inl hbody) name).attempt.bind ?_ ?_
      · intro _ _ hfull
        cases hbody.symm.trans hfull
      · intro result _ hend
        cases result with
        | ok partition =>
          obtain ⟨rfl, -, -⟩ := hend
          exact .pure rfl
        | error error => cases hbody.symm.trans hend
    | full =>
      rw [hbody] at hbears
      exact hbears.elim

end Device

/-! ## Sessions -/

namespace Deed

/-- The deed writes none of the four journal bytes that are the mark. -/
def Spares : Deed → Prop
  | .asking request => request.Spares
  | _ => True

end Deed

namespace Vfs

/-- A journal of an open blob is removed only if the erasure on its device succeeds. -/
theorem exists_answer_eraseJournal {vfs : Vfs} {id : BlobId} {record : BlobRecord}
    {path journal : String} {bytes : Bytes} (hjournal : splitJournalName journal = (path, true))
    (hnamed : vfs.registry.lookup? path = some id)
    (hrecord : vfs.registry.record? id = some record)
    (hremoved : (Request.perform (.remove journal)).answer vfs = .ok bytes) :
    ∃ next, (Blob.eraseJournal record.partition : StepM Attached Partition).answer
      (attached record vfs) = .ok next := by
  have hrun := run_remove hnamed hjournal
  have hblob := run_onBlob (fun partition => Blob.eraseJournal partition) hrecord
  cases hstep : (Blob.eraseJournal record.partition : StepM Attached Partition).run
      (attached record vfs) with
  | ok next a => exact ⟨next, (run_eq_ok_iff.mp hstep).1⟩
  | error e a =>
    have hfails : (Request.perform (.remove journal)).run vfs = .error e (setAttached id a vfs) := by
      rw [run_focus, hstep] at hblob
      rw [Request.perform, EStateM.run_bind, hrun, eraseJournal, EStateM.run_bind, hblob]
    cases hremoved.symm.trans (run_eq_error_iff.mp hfails).1

end Vfs

namespace Session

open FileBody

variable {s : Session} {id : BlobId} {origin : String ⊕ Nat} {capacity : Nat}

/-- A blob that was opened on a fresh device is there, and its record knows how long it is. -/
theorem held_opening {path : String} {openDevice : String → StepM World Device} {handle : Handle}
    {opened : Vfs} {device : Device} {world : World} (hnew : s.vfs.registry.lookup? path = none)
    (hdevice : (openDevice path).run s.vfs.world = .ok device world) (hfresh : device.Fresh world)
    (hopen : (openVia path .database openDevice).run s.vfs = .ok handle opened) :
    ∃ partition, opened.registry.partition? path = some partition ∧
      2 * blockSize ≤ partition.capacity ∧ partition.capacity ≤ standardCapacity ∧
      (s.after (.opening path .database openDevice)).Held handle.blob device.origin
        (Fits partition.capacity) (Bears partition.capacity) := by
  obtain ⟨there, after, partition, a, hgiven, hmount, rfl, rfl⟩ := entered_of_openVia hnew hopen
  obtain ⟨rfl, rfl⟩ := EStateM.Result.ok.inj (hdevice.symm.trans hgiven)
  obtain ⟨hanswer, hreached⟩ := run_eq_ok_iff.mp hmount
  obtain ⟨hlong, hcapacity, -⟩ := (Blob.ends_mount_found path _).value partition hanswer
  obtain ⟨hholding, hfits⟩ := (Device.ends_mount_bears hfresh path).value partition hanswer
  rw [hreached] at hholding
  refine ⟨partition, partition?_enter .., hlong, hcapacity, ⟨path, a.device, partition, 1⟩, ?_,
    hfits, ?_⟩
  · rw [vfs_after_opening hopen, record?_enter, if_pos rfl]
  · rw [vfs_after_opening hopen]
    exact hholding

/-- Deeds that use no other device leave the blob there. -/
theorem bears_run (h : s.Held id origin (Fits capacity) (Bears capacity))
    (hlong : 2 * blockSize ≤ capacity) (hcapacity : capacity ≤ standardCapacity) {deeds : List Deed}
    (honly : s.only id deeds) : (s.run deeds).Held id origin (Fits capacity) (Bears capacity) :=
  held_run h honly fun request _ _ hfits =>
    ⟨request.preserves_bears hfits hlong hcapacity, fun _ hturns => hturns.fits hfits⟩

/-- A removal that succeeds leaves the mark zero. -/
theorem unmarked_removal {path journal : String} {bytes : Bytes}
    (h : s.Held id origin (Fits capacity) (Bears capacity)) (hlong : 2 * blockSize ≤ capacity)
    (hcapacity : capacity ≤ standardCapacity)
    (hjournal : splitJournalName journal = (path, true))
    (hnamed : s.vfs.registry.lookup? path = some id)
    (hremoved : (Request.perform (.remove journal)).answer s.vfs = .ok bytes) :
    (s.after (.asking (.remove journal))).Held id origin (Fits capacity)
      fun body => Bears capacity body ∧ Unmarked capacity body := by
  obtain ⟨record, hrecord, hfits, hholding⟩ := h
  have htarget : (Request.remove journal).target s.vfs.registry = some id := by
    simp only [Request.target, hjournal, if_true, hnamed]
  obtain ⟨next, hanswer⟩ := exists_answer_eraseJournal hjournal hnamed hrecord hremoved
  obtain ⟨partition, hturns, hafter⟩ := after_asking htarget hrecord
  rw [hafter]
  refine ⟨_, (record?_modifyRecord _ _ _).trans (by rw [hrecord, Option.map_some]),
    hturns.fits hfits, ?_⟩
  obtain ⟨rfl, -⟩ := hfits
  have herased := (Attached.ends_eraseJournal_holding hlong hcapacity (fun _ h => h)
    (fun _ h => Attached.bears_write_head hlong h) hholding).value next hanswer
  rw [← reached_discard] at herased
  exact herased

/-- Deeds that spare the mark leave it zero. -/
theorem unmarked_run
    (h : s.Held id origin (Fits capacity) fun body => Bears capacity body ∧ Unmarked capacity body)
    (hlong : 10240 ≤ capacity) (hcapacity : capacity ≤ standardCapacity) {deeds : List Deed}
    (honly : s.only id deeds) (hspares : ∀ deed ∈ deeds, deed.Spares) :
    (s.run deeds).Held id origin (Fits capacity)
      fun body => Bears capacity body ∧ Unmarked capacity body :=
  held_run h honly fun _ _ hrequest hfits =>
    ⟨Request.preserves_unmarked hfits hlong hcapacity (hspares _ hrequest),
      fun _ hturns => hturns.fits hfits⟩

/-- Once the journal of an opened blob of at least ten kilobytes has been removed, deeds that write
none of its bytes 508 to 511 and use no other device, succeeding or failing, do not bring it back:
after a crash the path opens again, on any device that still has the contents, and without a
journal. -/
theorem removed_journal_stays_away {path journal : String} {openDevice : String → StepM World Device}
    {handle : Handle} {opened : Vfs} {device : Device} {world : World} {partition : Partition}
    {before more : List Deed} {bytes : Bytes} (hnew : s.vfs.registry.lookup? path = none)
    (hdevice : (openDevice path).run s.vfs.world = .ok device world) (hfresh : device.Fresh world)
    (hopen : (openVia path .database openDevice).run s.vfs = .ok handle opened)
    (hpartition : opened.registry.partition? path = some partition)
    (hlong : 10240 ≤ partition.capacity)
    (hbefore : (s.after (.opening path .database openDevice)).only handle.blob before)
    (hjournal : splitJournalName journal = (path, true)) :
    let held := (s.after (.opening path .database openDevice)).run before
    held.vfs.registry.lookup? path = some handle.blob →
    (Request.perform (.remove journal)).answer held.vfs = .ok bytes →
    let removed := held.after (.asking (.remove journal))
    removed.only handle.blob more → (∀ deed ∈ more, deed.Spares) →
    let last := removed.run more
    ∀ (reopenDevice : String → StepM World Device) crashed again there,
      (reopenDevice path).run crashed = .ok again there →
      again.origin = device.origin → again.Fresh there → again.Works there →
      there.contents device.origin = last.vfs.world.contents device.origin →
      ∃ user reopened found,
        (openVia path .database reopenDevice).run ⟨.empty, crashed⟩ = .ok user reopened ∧
        reopened.registry.partition? path = some found ∧ found.journalSize = 0 ∧
        reopened.present journal = false := by
  intro held hnamed hremoved removed hmore hspares last reopenDevice crashed again there hagain
    horigin hfreshAgain hworks hcontents
  obtain ⟨start, hstart, hblocks, hcapacity, hheld⟩ := held_opening hnew hdevice hfresh hopen
  obtain rfl : start = partition := Option.some.inj (hstart.symm.trans hpartition)
  have hbears := bears_run hheld hblocks hcapacity hbefore
  have hunmarked := unmarked_removal hbears hblocks hcapacity hjournal hnamed hremoved
  obtain ⟨record, -, -, hlast⟩ := unmarked_run hunmarked hlong hcapacity hmore hspares
  obtain ⟨hthere, hmark⟩ := hlast.held
  rw [show (attached record last.vfs).world.contents device.origin =
    last.vfs.world.contents device.origin from rfl, ← hcontents, ← horigin] at hthere hmark
  obtain ⟨found, hmount, hnone⟩ :=
    (Device.ends_mount_unmarked hfreshAgain hworks hthere hmark path).exists_value
  have hempty : (⟨.empty, crashed⟩ : Vfs).registry.lookup? path = none := by
    simp [Registry.lookup?, Registry.empty]
  have hrun := @openVia_new _ _ path _ ⟨.empty, crashed⟩ reopenDevice hempty
  simp only [hagain, hmount] at hrun
  refine ⟨_, _, found, hrun, partition?_enter .., hnone, ?_⟩
  simp [present, hjournal, partition?_enter, hnone]

/-- A journal of a block is removed; the database and the journal are written again, and a crash
leaves none. -/
theorem removed_journal_stays_away_full_block :
    ∃ (handle : Handle) (opened : Vfs),
      (openVia "a" .database fun _ => pure (.ram "m")).run .initial = .ok handle opened ∧
      let first := (start .initial).after (.opening "a" .database fun _ => pure (.ram "m"))
      let last := first.run [.asking (.write ⟨.journal, handle.blob, 0⟩ 0 (.replicate 512 1)),
        .asking (.remove "a-journal"), .asking (.write ⟨.database, handle.blob, 0⟩ 0 #[1]),
        .asking (.write ⟨.journal, handle.blob, 0⟩ 0 #[2])]
      let crashed := last.vfs.world.setMedium "m"
        { last.vfs.world.medium "m" with faults := .none }
      ∃ user reopened,
        (openVia "a" .database fun _ => pure (.ram "m")).run (⟨.empty, crashed⟩ : Vfs) =
          .ok user reopened ∧
        reopened.present "a-journal" = false := by
  obtain ⟨handle, opened, hopen, hserves⟩ := openVia_initial "a" "m"
  refine ⟨handle, opened, hopen, ?_⟩
  intro first last crashed
  have hfirst : first.vfs = opened := vfs_after_opening hopen
  have hjournal : splitJournalName "a-journal" = ("a", true) := by decide
  let write : Request := .write ⟨.journal, handle.blob, 0⟩ 0 (.replicate 512 1)
  have hwritten : Serves "a" handle.blob "m" (write.perform.reached first.vfs)
      (Live.withJournal (.replicate 512 1)) := by
    have hrun := (alike_perform (hfirst ▸ hserves) write rfl).reached_rel
    have hafter := Live.after_of_run_ok (@Live.run_write_fresh (.replicate 512 1) (by simp)
      (by simp [blockSize]))
    exact hafter ▸ hrun
  have hremoved : (Request.perform (.remove "a-journal")).answer (write.perform.reached first.vfs) =
      .ok #[] := by
    have hhealthy : (Live.withJournal (.replicate 512 1)).disk.Healthy := healthy_materialised.put _ _
    have herase := Live.run_eraseJournal hhealthy (by decide) (by decide)
    exact (alike_perform hwritten (.remove "a-journal") hjournal).answer_eq.trans
      (run_eq_ok_iff.mp herase).1
  let more : List Deed := [.asking (.write ⟨.database, handle.blob, 0⟩ 0 #[1]),
    .asking (.write ⟨.journal, handle.blob, 0⟩ 0 #[2])]
  have hspares : ∀ deed ∈ more, deed.Spares := by
    have hmark : ∀ i, blockSize - wordSize ≤ i → ¬ i < 1 := by
      intro i hi
      unfold blockSize wordSize at hi
      omega
    intro deed hdeed
    rcases List.mem_cons.mp hdeed with rfl | hdeed
    · intro hregion
      cases hregion
    · obtain rfl := List.mem_singleton.mp hdeed
      intro _ i hlow _ hcovered
      have hstop : i < 0 + 1 := hcovered.2
      exact hmark i hlow (by omega)
  have hworks : (Device.ram "m").Works crashed := by
    show (crashed.medium "m").faults.reads = false
    rw [World.medium_setMedium, if_pos rfl]
    rfl
  have hcontents : crashed.contents (.inl "m") = last.vfs.world.contents (.inl "m") := by
    rw [World.contents_setMedium, if_pos rfl]
    rfl
  obtain ⟨user, reopened, -, hagain, -, -, hpresent⟩ := @removed_journal_stays_away (start .initial)
    "a" "a-journal" (fun _ => pure (.ram "m")) handle opened (.ram "m") .initial
    (.blank standardCapacity) [.asking write] more #[] (lookup?_initial "a") rfl trivial hopen
    hserves.partition?_eq (by decide) ⟨.inl rfl, trivial⟩ hjournal hwritten.named hremoved
    ⟨.inl rfl, .inl rfl, trivial⟩ hspares (fun _ => pure (.ram "m")) crashed (.ram "m") crashed rfl rfl
    trivial hworks hcontents
  exact ⟨user, reopened, hagain, hpresent⟩

end Session

end TwinRegion
