/-
TwinRegion.Proofs.Erasure — what erasing the journal does to the database.

An erasure zeroes two words at the end of the blob, the journal's first
word and the mark, without a look at how far the database reaches
(`Wipes`). It spares the database exactly when every database byte in those
words is zero already (`spares_iff`).

A database that ends two blocks below the end of the blob is out of reach.
The ceiling sees to that on a blob of some size, but nine tenths of a small
one come nearer than two blocks to its end, and so may a database that an
opening finds. Where the ceiling leaves less than two blocks, one write and
one erasure do lose a byte (`exists_unspared`).
-/
import TwinRegion.Proofs.Mark

namespace TwinRegion

open TwinRegion.Partition RamDisk StepM

theorem RamDisk.Healthy.takes {disk : RamDisk} (h : disk.Healthy) {offset : Nat} {data : Bytes}
    (hlen : offset + data.size ≤ maxLength) : disk.takes offset data = true := by
  rw [RamDisk.takes, (run_eq_ok_iff.mp (h.run_write hlen)).1]
  rfl

/-- A medium of `len` zero bytes that grows. -/
def RamDisk.zeroed (len : Nat) : RamDisk := { growable with image := .zeros len }

namespace Blob

variable {partition : Partition} {disk : RamDisk}

/-- A medium of zeros opens as a blank blob, if it is long enough. -/
theorem exists_mount_zeroed (name : String) {len : Nat} (h : 2 * blockSize ≤ len) :
    ∃ start : Live, (mount name : StepM RamDisk Partition).run (.zeroed len) =
        .ok start.partition start.disk ∧
      start.partition = .blank (min len standardCapacity) ∧ start.disk.Healthy := by
  have hfound : found (RamDisk.zeroed len).image = .blank (min len standardCapacity) := found_zeros len
  exact ⟨⟨_, _⟩, run_mount_within name rfl (mountable_of_blank h hfound), hfound, rfl, rfl⟩

/-- A healthy medium takes both writes of an erasure. -/
theorem run_eraseJournal (h : disk.Healthy) (hblock : blockSize ≤ partition.capacity)
    (hcapacity : partition.capacity ≤ maxLength) :
    (eraseJournal partition).run disk =
      .ok { partition with journalSize := 0 }
        ((disk.put (partition.capacity - blockSize) (Bytes.zeros wordSize)).put
          (partition.capacity - wordSize) (Bytes.zeros wordSize)) := by
  have hword : wordSize ≤ blockSize := by decide
  have hready : (Disk.ready : StepM RamDisk Unit).run disk = .ok () disk := rfl
  have hhead : journalHead partition.capacity = .ok (partition.capacity - blockSize) :=
    Word.sub_eq_ok_iff.mpr ⟨hblock, rfl⟩
  have hmark : markOffset partition.capacity = .ok (partition.capacity - wordSize) :=
    Word.sub_eq_ok_iff.mpr ⟨by omega, rfl⟩
  have hfirst := @Healthy.run_write disk h (partition.capacity - blockSize) (Bytes.zeros wordSize)
    (by rw [Bytes.size_zeros]; omega)
  have hlast := @Healthy.run_write _ (h.put (partition.capacity - blockSize) (Bytes.zeros wordSize))
    (partition.capacity - wordSize) (Bytes.zeros wordSize) (by rw [Bytes.size_zeros]; omega)
  rw [eraseJournal, run_bind_of_ok hready, run_check_bind hhead]
  refine (run_bind_of_ok hfirst).trans ?_
  rw [run_check_bind hmark]
  exact run_bind_of_ok hlast

end Blob

namespace Live

variable {live next : Live}

theorem run_eraseJournal (h : live.disk.Healthy) (hblock : blockSize ≤ live.partition.capacity)
    (hcapacity : live.partition.capacity ≤ maxLength) :
    (perform .eraseJournal).run live =
      .ok #[] ⟨{ live.partition with journalSize := 0 },
        (live.disk.put (live.partition.capacity - blockSize) (Bytes.zeros wordSize)).put
          (live.partition.capacity - wordSize) (Bytes.zeros wordSize)⟩ :=
  run_bind_of_ok (run_onDisk Blob.eraseJournal (Blob.run_eraseJournal h hblock hcapacity))

/-! ## A blob of two blocks -/

/-- A blob so small that one block holds both the database and the journal. -/
def twoBlocks (databaseSize journalSize : Nat) (disk : RamDisk) : Live :=
  ⟨⟨2 * blockSize, databaseSize, journalSize⟩, disk⟩

theorem exists_mount_two_blocks :
    ∃ disk, (Blob.mount "a" : StepM RamDisk Partition).run (.zeroed (2 * blockSize)) =
        .ok (twoBlocks 0 0 disk).partition (twoBlocks 0 0 disk).disk ∧ disk.Healthy := by
  obtain ⟨⟨partition, disk⟩, hopen, hpartition, hhealthy⟩ :=
    Blob.exists_mount_zeroed "a" (Nat.le_refl (2 * blockSize))
  obtain rfl : partition = .blank (2 * blockSize) := hpartition.trans (by decide)
  exact ⟨disk, hopen, hhealthy⟩

theorem run_write_one {disk : RamDisk} (h : disk.Healthy) {offset : Nat} (hle : offset ≤ 1) :
    (perform (.write .database offset #[1])).run (twoBlocks 0 0 disk) =
      .ok #[] (twoBlocks (offset + 1) 0 (disk.put (blockSize + offset) #[1])) := by
  have hguard : (Partition.blank (2 * blockSize)).guardDatabaseWrite offset 1 = .ok () := by
    rw [guardDatabaseWrite_alone_iff rfl (by decide)]
    exact ⟨Nat.le_trans (Nat.add_le_add_right (Nat.add_le_add_right hle 1) blockSize) (by decide),
      Nat.le_trans (Nat.add_le_add_right hle 1) (by decide)⟩
  have hlength : blockSize + 2 ≤ maxLength := by decide
  have hrun := @Blob.run_write_database (.blank (2 * blockSize)) disk offset #[1] h hguard
    (show blockSize + offset + 1 ≤ maxLength by omega)
  have hsize : max (Partition.blank (2 * blockSize)).databaseSize (offset + (#[1] : Bytes).size) =
      offset + 1 := Nat.zero_max _
  rw [hsize] at hrun
  exact run_write hrun

/-- A journal write into the second block, above the database. -/
theorem run_write_twos {disk : RamDisk} (h : disk.Healthy) {databaseSize offset len : Nat}
    (hpos : 0 < len) (hblock : offset + len ≤ blockSize) (habove : databaseSize ≤ offset) :
    (perform (.write .journal offset (.replicate len 2))).run (twoBlocks databaseSize 0 disk) =
      .ok #[] (twoBlocks databaseSize (offset + len)
        (disk.put (blockSize + offset) (.replicate len 2))) := by
  have hsize : (Array.replicate len 2 : Bytes).size = len := Array.size_replicate
  have hplace : place (2 * blockSize) offset = blockSize + offset := by
    unfold place blockSize at *
    omega
  have hmod : offset % blockSize = offset := Nat.mod_eq_of_lt (by omega)
  have hlimit : blockSize < 1 <<< 63 := by decide
  have hcapacity : 2 * blockSize < 1 <<< 63 - 1 := by decide
  have hroom : databaseSize + blockSize ≤ place (2 * blockSize) offset := by omega
  have hrun := @Blob.run_write_in_block ⟨2 * blockSize, databaseSize, 0⟩ disk offset
    (.replicate len 2) h (by rwa [hsize]) (by rw [hsize]; omega) hcapacity (by rw [hsize]; omega)
    hroom
  rw [hsize, hplace, Nat.zero_max] at hrun
  exact run_write hrun

/-! ## One erasure -/

/-- An erasure zeroes byte `x` of the medium: it lies in the journal's first word and the
medium takes that write, or it lies in the mark and the erasure succeeds. -/
def Wipes (live : Live) (x : Nat) : Prop :=
  (live.disk.takes (live.partition.capacity - blockSize) (Bytes.zeros wordSize) = true ∧
    live.partition.capacity - blockSize ≤ x ∧
    x < live.partition.capacity - blockSize + wordSize) ∨
  (live.succeeds .eraseJournal = true ∧ live.markPlace ≤ x ∧ x < live.markPlace + wordSize)

/-- An erasure leaves every byte of the database as it is. -/
def Spares (live : Live) : Prop :=
  ∀ i < live.partition.databaseSize,
    (live.after .eraseJournal).disk.image.byte (blockSize + i) = live.disk.image.byte (blockSize + i)

theorem Change.byte_erased {ok : Bool} (h : Change live .eraseJournal ok next)
    (hok : live.succeeds .eraseJournal = ok) (x : Nat) :
    (live.Wipes x → next.disk.image.byte x = 0) ∧
      (¬ live.Wipes x → next.disk.image.byte x = live.disk.image.byte x) := by
  unfold Wipes markPlace
  rw [hok]
  cases h with
  | erased htakes hdisk =>
    rw [hdisk.image_eq, Image.byte_write_zeros, Image.byte_write_zeros]
    constructor
    · rintro (⟨-, hx⟩ | ⟨-, hx⟩)
      · rw [if_pos hx, ite_self]
      · rw [if_pos hx]
    · intro hx
      rw [if_neg fun hin => hx (.inr ⟨rfl, hin⟩), if_neg fun hin => hx (.inl ⟨htakes, hin⟩)]
  | halfErased hdisk =>
    rw [hdisk.image_eq, written]
    constructor
    · rintro (⟨htakes, hx⟩ | ⟨hfalse, -⟩)
      · rw [if_pos htakes, Image.byte_write_zeros, if_pos hx]
      · cases hfalse
    · intro hx
      split
      · rw [Image.byte_write_zeros, if_neg fun hin => hx (.inl ⟨‹_›, hin⟩)]
      · rfl

/-- The database is spared exactly if what the erasure zeroes of it is zero already. -/
theorem Sound.spares_iff (hsound : live.Sound) :
    live.Spares ↔ ∀ i < live.partition.databaseSize, live.Wipes (blockSize + i) →
      live.disk.image.byte (blockSize + i) = 0 := by
  have hbyte := fun x => (change_after hsound.block_le .eraseJournal).byte_erased rfl x
  constructor
  · intro h i hi hwipes
    rw [← h i hi]
    exact (hbyte _).1 hwipes
  · intro h i hi
    by_cases hwipes : live.Wipes (blockSize + i)
    · rw [(hbyte _).1 hwipes, h i hi hwipes]
    · exact (hbyte _).2 hwipes

/-- The erasure does not reach a database that ends two blocks below the end. -/
theorem Sound.spares_of_two_blocks (hsound : live.Sound)
    (h : live.partition.databaseSize + 2 * blockSize ≤ live.partition.capacity) : live.Spares := by
  have hword : wordSize ≤ blockSize := by decide
  refine hsound.spares_iff.mpr fun i hi hwipes => ?_
  unfold Wipes markPlace at hwipes
  omega

/-- A reader of a spared database sees no difference. -/
theorem Sound.answer_read_spared (hsound : live.Sound) (h : live.Spares) (offset len : Nat) :
    (Blob.read (live.after .eraseJournal).partition .database offset len :
        StepM RamDisk Bytes).answer (live.after .eraseJournal).disk =
      (Blob.read live.partition .database offset len).answer live.disk := by
  have hchange := change_after hsound.block_le .eraseJournal
  have hkept : (live.after .eraseJournal).partition.databaseSize = live.partition.databaseSize ∧
      (live.after .eraseJournal).disk.faults.reads = live.disk.faults.reads := by
    generalize live.succeeds .eraseJournal = ok at hchange
    generalize live.after .eraseJournal = next at hchange
    cases hchange with
    | erased _ hdisk | halfErased hdisk => exact ⟨rfl, hdisk.reads_eq⟩
  exact answer_read_database hkept.1 (hchange.size_eq hsound) h hkept.2 offset len

/-! ## Runs -/

/-- A database never grows past the ceiling, and past its first length only up to there. -/
theorem databaseSize_run_le {start : Live} (hsound : start.Sound) (actions : List Action) :
    (start.run actions).partition.databaseSize ≤
      max start.partition.databaseSize (databaseCeiling start.partition.capacity) := by
  refine (run_invariant (fun live =>
    live.partition.capacity = start.partition.capacity ∧ live.partition.databaseSize ≤
      max start.partition.databaseSize (databaseCeiling start.partition.capacity)) ?_ hsound
    ⟨rfl, Nat.le_max_left ..⟩ actions).2
  rintro live action hsound ⟨hcapacity, hsize⟩
  have hchange := change_after hsound.block_le action
  refine ⟨hchange.capacity_eq.trans hcapacity, ?_⟩
  generalize live.succeeds action = ok at hchange
  generalize live.after action = next at hchange
  cases hchange with
  | databaseWritten hguard _ =>
    have hceiling := (guardDatabaseWrite_eq_ok_iff.mp hguard).2.2.2.1
    rw [hcapacity] at hceiling
    exact Nat.max_le.mpr ⟨hsize, Nat.le_trans hceiling (Nat.le_max_right ..)⟩
  | @truncated region size =>
    cases region with
    | database => exact Nat.le_trans (Nat.min_le_left ..) hsize
    | journal => exact hsize
  | _ => exact hsize

/-- Where the ceiling leaves less than two blocks, a byte can be written where the erasure
puts a zero. -/
theorem Sound.byte_lost (hsound : live.Sound) (hhealthy : live.disk.Healthy)
    (hnone : live.partition.journalSize = 0)
    (hshort : live.partition.capacity <
      databaseCeiling live.partition.capacity + 2 * blockSize) :
    let place := live.partition.capacity - 2 * blockSize
    let written := live.after (.write .database place #[1])
    place < written.partition.databaseSize ∧
      written.disk.image.byte (blockSize + place) = 1 ∧
      written.succeeds .eraseJournal = true ∧
      (written.after .eraseJournal).disk.image.byte (blockSize + place) = 0 := by
  have hlong := hsound.long
  have hcapacity := hsound.capacity_lt
  have hwords : 2 * wordSize ≤ blockSize := by decide
  have hpos : 0 < wordSize := by decide
  have hmemory : live.partition.capacity ≤ maxLength := by
    unfold maxLength
    omega
  intro place written
  have hhead : live.partition.capacity - blockSize = blockSize + place := by omega
  have hguard : live.partition.guardDatabaseWrite place 1 = .ok () :=
    (guardDatabaseWrite_alone_iff hnone hcapacity).mpr ⟨by omega, by omega⟩
  have hrun := run_write (@Blob.run_write_database _ _ _ #[1] hhealthy hguard
    (show blockSize + place + 1 ≤ maxLength by omega))
  have hwritten : written =
      ⟨{ live.partition with databaseSize := max live.partition.databaseSize (place + 1) },
        live.disk.put (blockSize + place) #[1]⟩ := after_of_run_ok hrun
  have herase := @run_eraseJournal written (hwritten ▸ hhealthy.put _ _)
    (by rw [hwritten]; exact hsound.block_le) (by rw [hwritten]; exact hmemory)
  refine ⟨?_, ?_, succeeds_of_run_ok herase, ?_⟩
  · rw [hwritten]
    exact Nat.lt_of_lt_of_le (Nat.lt_succ_self place) (Nat.le_max_right ..)
  · rw [hwritten]
    simp [put, Array.getD]
  · rw [after_of_run_ok herase, hwritten]
    dsimp only [put]
    rw [Image.byte_write_zeros, Image.byte_write_zeros, if_neg (by omega), if_pos (by omega)]

theorem exists_unspared {start : Live} (hsound : start.Sound) (hhealthy : start.disk.Healthy)
    (hshort : start.partition.capacity <
      databaseCeiling start.partition.capacity + 2 * blockSize) :
    ∃ actions, ¬ (start.run actions).Spares := by
  have hmemory : start.partition.capacity ≤ maxLength := by
    have := hsound.capacity_lt
    unfold maxLength
    omega
  have herase := after_of_run_ok (run_eraseJournal hhealthy hsound.block_le hmemory)
  have hlost := (sound_after hsound .eraseJournal).byte_lost
  rw [herase] at hlost
  obtain ⟨hin, hone, -, hzero⟩ := hlost ((hhealthy.put _ _).put _ _) rfl hshort
  refine ⟨[.eraseJournal, .write .database (start.partition.capacity - 2 * blockSize) #[1]],
    fun hspares => ?_⟩
  rw [run_cons, run_cons, run_nil, herase] at hspares
  have hkept := hspares _ hin
  rw [hone, hzero] at hkept
  exact absurd hkept (by decide)

/-- After every run from an opened blob, an erasure spares the database exactly if what it
zeroes of it is zero already, and a spared database reads as before. So it does in every run
if the database, as it was found and as far as it may grow, ends two blocks below the end of
the blob; and on a healthy medium with a database found below the ceiling, only then. -/
theorem erasure_spares_database_iff {name : String} {disk : RamDisk} {start : Live}
    (hopen : (Blob.mount name : StepM RamDisk Partition).run disk =
      .ok start.partition start.disk) :
    (∀ actions,
      ((start.run actions).Spares ↔ ∀ i < (start.run actions).partition.databaseSize,
        (start.run actions).Wipes (blockSize + i) →
        (start.run actions).disk.image.byte (blockSize + i) = 0) ∧
      ((start.run actions).Spares → ∀ offset len,
        (Blob.read ((start.run actions).after .eraseJournal).partition .database offset len :
            StepM RamDisk Bytes).answer ((start.run actions).after .eraseJournal).disk =
          (Blob.read (start.run actions).partition .database offset len).answer
            (start.run actions).disk)) ∧
    (max start.partition.databaseSize (databaseCeiling start.partition.capacity) + 2 * blockSize ≤
      start.partition.capacity → ∀ actions, (start.run actions).Spares) ∧
    (start.Modest → start.disk.Healthy →
      ((∀ actions, (start.run actions).Spares) ↔
        databaseCeiling start.partition.capacity + 2 * blockSize ≤ start.partition.capacity)) := by
  have hsound := sound_of_mount hopen
  have hfar : max start.partition.databaseSize (databaseCeiling start.partition.capacity) +
      2 * blockSize ≤ start.partition.capacity → ∀ actions, (start.run actions).Spares := by
    intro hroom actions
    have hsize := databaseSize_run_le hsound actions
    have hcapacity := (lengths_run hsound actions).1
    exact (sound_run hsound actions).spares_of_two_blocks (by omega)
  refine ⟨fun actions => ⟨(sound_run hsound actions).spares_iff, fun h offset len => ?_⟩, hfar,
    fun hmodest hhealthy => ⟨fun hall => ?_, fun hroom => ?_⟩⟩
  · exact (sound_run hsound actions).answer_read_spared h offset len
  · refine Nat.le_of_not_lt fun hshort => ?_
    obtain ⟨actions, hlost⟩ := exists_unspared hsound hhealthy hshort
    exact hlost (hall actions)
  · unfold Modest at hmodest
    exact hfar (by omega)

/-- A medium of twenty zero blocks is long enough. -/
theorem erasure_spares_database_twenty_blocks :
    ∃ start : Live, (Blob.mount "a" : StepM RamDisk Partition).run (.zeroed (20 * blockSize)) =
        .ok start.partition start.disk ∧ ∀ actions, (start.run actions).Spares := by
  obtain ⟨start, hopen, hpartition, hhealthy⟩ :=
    Blob.exists_mount_zeroed "a" (show 2 * blockSize ≤ 20 * blockSize by decide)
  have hmodest : start.Modest := by
    rw [Modest, hpartition]
    exact Nat.zero_le _
  refine ⟨start, hopen, ((erasure_spares_database_iff hopen).2.2 hmodest hhealthy).mpr ?_⟩
  rw [hpartition]
  decide

/-- On a medium of two blocks the first byte of the database is the first of the journal: it is
written, and zero after an erasure that succeeds. -/
theorem erasure_zeroes_database :
    ∃ start : Live, (Blob.mount "a" : StepM RamDisk Partition).run (.zeroed (2 * blockSize)) =
        .ok start.partition start.disk ∧
      let written := start.run [.write .database 0 #[1]]
      0 < written.partition.databaseSize ∧ written.disk.image.byte blockSize = 1 ∧
        written.succeeds .eraseJournal = true ∧
        (written.after .eraseJournal).disk.image.byte blockSize = 0 := by
  obtain ⟨start, hopen, hpartition, hhealthy⟩ :=
    Blob.exists_mount_zeroed "a" (Nat.le_refl (2 * blockSize))
  have hnone : start.partition.journalSize = 0 := by rw [hpartition]; rfl
  have hcapacity : start.partition.capacity = 2 * blockSize := by rw [hpartition]; decide
  have hlost := (sound_of_mount hopen).byte_lost hhealthy hnone (by rw [hcapacity]; decide)
  rw [hcapacity, Nat.sub_self] at hlost
  exact ⟨start, hopen, hlost⟩

end Live

end TwinRegion
