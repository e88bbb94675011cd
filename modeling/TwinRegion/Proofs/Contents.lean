/-
TwinRegion.Proofs.Contents — two regions as two byte arrays.

`Contents` is what the users of a blob know about its bytes: at each
position of each region the byte that was last written there, unless the
region has been shorter since. `Live.known` keeps it through a run, without
a look at the medium.

The medium agrees with what is known (`Stores`), and known journal bytes
keep clear of the database. Each change preserves this (`Change.stores`):
a write meets only known bytes of its own region, because the guards keep
the other region's away. The blob must be long enough, and its database
short enough, for an erased journal not to reach into the database
(`Settled`).
-/
import TwinRegion.Proofs.Live

namespace TwinRegion

open TwinRegion.Partition RamDisk

/-- What is known of the bytes of the two regions. -/
abbrev Contents := Region → Nat → Option UInt8

namespace Contents

/-- Nothing is known. -/
def unknown : Contents := fun _ _ => none

/-- The first `count` bytes of `data` are put at `offset` of a region. -/
def put (known : Contents) (region : Region) (offset count : Nat) (data : Bytes) : Contents :=
  fun r p =>
    if r = region ∧ offset ≤ p ∧ p < offset + count then some (data.getD (p - offset) 0)
    else known r p

/-- What lies past the end of its region is forgotten. -/
def cut (known : Contents) (partition : Partition) : Contents :=
  fun r p => if p < partition.regionSize r then known r p else none

theorem cut_eq_some {known : Contents} {partition : Partition} {r : Region} {p : Nat} {b : UInt8} :
    known.cut partition r p = some b ↔ p < partition.regionSize r ∧ known r p = some b := by
  unfold cut
  by_cases h : p < partition.regionSize r <;> simp [h]

theorem put_of_ne {known : Contents} {region r : Region} (h : r ≠ region) (offset count : Nat)
    (data : Bytes) (p : Nat) : known.put region offset count data r p = known r p := by
  rw [put, if_neg fun hin => h hin.1]

theorem put_self (known : Contents) (region : Region) (offset count : Nat) (data : Bytes) (p : Nat) :
    known.put region offset count data region p =
      if offset ≤ p ∧ p < offset + count then some (data.getD (p - offset) 0) else known region p := by
  simp [put]

end Contents

namespace Live

/-! ## What is known -/

/-- What an action puts into the regions: a database write all of its data or nothing, a
journal write the runs that reached the medium. An erasure puts a zero word at the start
of the journal once the medium takes it, even if the erasure fails after that. -/
def stored (live : Live) (action : Action) (ok : Bool) (known : Contents) : Contents :=
  match action with
  | .write .database offset data => if ok then known.put .database offset data.size data else known
  | .write .journal offset data =>
    known.put .journal offset (span (Blob.storedRuns live.partition offset data live.disk)) data
  | .eraseJournal =>
    if live.disk.takes (live.partition.capacity - blockSize) (Bytes.zeros wordSize) then
      known.put .journal 0 wordSize (Bytes.zeros wordSize)
    else known
  | _ => known

/-- What is known after an action. -/
def keepKnown (live : Live) (action : Action) (known : Contents) : Contents :=
  (live.stored action (live.succeeds action) known).cut (live.after action).partition

/-- What is known after a run that started with nothing known. -/
def known (start : Live) (actions : List Action) : Contents :=
  track keepKnown start .unknown actions

/-! ## The medium agrees -/

/-- The medium holds every known byte at its address, inside the region, and the known bytes
of the journal lie above the database. -/
structure Stores (live : Live) (known : Contents) : Prop where
  inside : ∀ r p b, known r p = some b → p < live.partition.regionSize r
  held : ∀ r p b, known r p = some b →
    live.disk.image.byte (address live.partition.capacity r p) = b
  above : ∀ p b, known .journal p = some b →
    Housed live.partition.capacity p ∧
      blockSize + live.partition.databaseSize ≤ place live.partition.capacity p

/-- Reads work, the blob is not tiny, its database is below the ceiling, and its journal is
no longer than memory. -/
structure Settled (live : Live) : Prop where
  reads : live.disk.faults.reads = false
  long : 20 * blockSize ≤ live.partition.capacity
  modest : live.Modest
  journal_lt : live.partition.journalSize < 1 <<< 63

/-- A journal write ends below 2^63, and reads are not made to fail. -/
def Tame : Action → Prop
  | .write .journal offset data => offset + data.size < 1 <<< 63
  | .setFaults faults => faults.reads = false
  | _ => True

/-- Two blocks are left above a database that is below the ceiling. -/
theorem Settled.two_blocks {live : Live} (h : live.Settled) :
    live.partition.databaseSize + 2 * blockSize ≤ live.partition.capacity := by
  have hlong := h.long
  have hmodest := h.modest
  unfold Modest databaseCeiling at hmodest
  unfold blockSize at *
  omega

theorem Change.settled {live next : Live} {action : Action} {ok : Bool} (h : live.Settled)
    (htame : Tame action) (hchange : Change live action ok next) : next.Settled := by
  refine ⟨?_, ?_, hchange.modest h.modest, ?_⟩
  · have hreads := h.reads
    cases hchange with
    | truncated => exact hreads
    | faulted => exact htame
    | read hdisk | databaseKept hdisk | journalSync hdisk | databaseWritten _ hdisk
    | journalWritten _ _ hdisk | journalCut hdisk | databaseSynced _ hdisk | databaseUnsynced hdisk
    | erased _ hdisk | halfErased hdisk => exact hdisk.reads_eq.trans hreads
  · rw [hchange.capacity_eq]
    exact h.long
  · have hjournal := h.journal_lt
    cases hchange with
    | journalWritten => exact Nat.max_lt.mpr ⟨hjournal, htame⟩
    | @truncated region size =>
      cases region with
      | database => exact hjournal
      | journal => exact Nat.lt_of_le_of_lt (Nat.min_le_left ..) hjournal
    | erased => exact Nat.two_pow_pos 63
    | _ => exact hjournal

/-! ## Changes -/

/-- What is known after a cut has to be stored only as far as the regions reach. -/
theorem stores_cut {next : Live} {known : Contents}
    (hheld : ∀ r p b, p < next.partition.regionSize r → known r p = some b →
      next.disk.image.byte (address next.partition.capacity r p) = b)
    (habove : ∀ p b, p < next.partition.journalSize → known .journal p = some b →
      Housed next.partition.capacity p ∧
        blockSize + next.partition.databaseSize ≤ place next.partition.capacity p) :
    next.Stores (known.cut next.partition) where
  inside _ _ _ h := (Contents.cut_eq_some.mp h).1
  held r p b h := hheld r p b (Contents.cut_eq_some.mp h).1 (Contents.cut_eq_some.mp h).2
  above p b h := habove p b (Contents.cut_eq_some.mp h).1 (Contents.cut_eq_some.mp h).2

/-- Every known byte lies above the header. -/
theorem Stores.header_le {live : Live} {known : Contents} (h : live.Stores known) {r : Region}
    {p : Nat} {b : UInt8} (hb : known r p = some b) :
    blockSize ≤ address live.partition.capacity r p := by
  cases r with
  | database => exact Nat.le_add_right ..
  | journal => exact Nat.le_trans (Nat.le_add_right ..) (h.above p b hb).2

/-- What is known stays stored while only the header changes and the database does not grow. -/
theorem Stores.still {live next : Live} {known : Contents} (h : live.Stores known)
    (hcapacity : next.partition.capacity = live.partition.capacity)
    (hdatabase : next.partition.databaseSize ≤ live.partition.databaseSize)
    (hbyte : ∀ x, blockSize ≤ x → next.disk.image.byte x = live.disk.image.byte x) :
    next.Stores (known.cut next.partition) := by
  refine stores_cut (fun r p b _ hb => ?_) fun p b _ hb => ?_
  · rw [hcapacity, hbyte _ (h.header_le hb)]
    exact h.held r p b hb
  · obtain ⟨hhoused, hplace⟩ := h.above p b hb
    rw [hcapacity]
    exact ⟨hhoused, by omega⟩

/-- A database write that passes its guard meets no known byte of the journal. -/
theorem Stores.databaseWritten {live next : Live} {known : Contents} (h : live.Stores known)
    {offset : Nat} {data : Bytes}
    (hguard : live.partition.guardDatabaseWrite offset data.size = .ok ())
    (hcapacity : next.partition.capacity = live.partition.capacity)
    (hdatabase : next.partition.databaseSize = max live.partition.databaseSize (offset + data.size))
    (himage : next.disk.image = live.disk.image.write (blockSize + offset) data) :
    next.Stores ((known.put .database offset data.size data).cut next.partition) := by
  obtain ⟨-, -, hroom, -, -⟩ := guardDatabaseWrite_eq_ok_iff.mp hguard
  have hclear : ∀ p b, known .journal p = some b →
      blockSize + offset + data.size ≤ place live.partition.capacity p := by
    intro p b hb
    have := reserve_le_place (h.inside .journal p b hb) (h.above p b hb).1
    omega
  refine stores_cut (fun r p b _ hb => ?_) fun p b _ hb => ?_
  · rw [hcapacity, himage]
    cases r with
    | database =>
      have hheld := h.held .database p b
      rw [Contents.put_self] at hb
      simp only [address] at hheld ⊢
      rw [Image.byte_write]
      split at hb
      · rw [if_pos (by omega), Nat.add_sub_add_left]
        exact Option.some.inj hb
      · rw [if_neg (by omega)]
        exact hheld hb
    | journal =>
      rw [Contents.put_of_ne (by decide)] at hb
      have hheld := h.held .journal p b hb
      have := hclear p b hb
      simp only [address] at hheld ⊢
      rw [Image.byte_write, if_neg (by omega)]
      exact hheld
  · rw [Contents.put_of_ne (by decide)] at hb
    have := hclear p b hb
    obtain ⟨hhoused, hplace⟩ := h.above p b hb
    rw [hcapacity, hdatabase]
    exact ⟨hhoused, by omega⟩

/-- Bytes put into the journal above the database, and nowhere else. -/
theorem Stores.journalPut {live next : Live} {known : Contents} (h : live.Stores known)
    {offset count : Nat} {data : Bytes}
    (hcapacity : next.partition.capacity = live.partition.capacity)
    (hdatabase : next.partition.databaseSize = live.partition.databaseSize)
    (hnew : ∀ p, offset ≤ p → p < offset + count → Housed live.partition.capacity p ∧
      blockSize + live.partition.databaseSize ≤ place live.partition.capacity p)
    (hbelow : ∀ x, x < blockSize + live.partition.databaseSize →
      next.disk.image.byte x = live.disk.image.byte x)
    (hbyte : ∀ p, Housed live.partition.capacity p →
      next.disk.image.byte (place live.partition.capacity p) =
        if offset ≤ p ∧ p < offset + count then data.getD (p - offset) 0
        else live.disk.image.byte (place live.partition.capacity p)) :
    next.Stores ((known.put .journal offset count data).cut next.partition) := by
  have habove : ∀ p b, (known.put .journal offset count data) .journal p = some b →
      Housed live.partition.capacity p ∧
        blockSize + live.partition.databaseSize ≤ place live.partition.capacity p := by
    intro p b hb
    rw [Contents.put_self] at hb
    split at hb
    · exact hnew p (by omega) (by omega)
    · exact h.above p b hb
  refine stores_cut (fun r p b _ hb => ?_) fun p b _ hb => ?_
  · rw [hcapacity]
    cases r with
    | database =>
      rw [Contents.put_of_ne (by decide)] at hb
      have hin : p < live.partition.databaseSize := h.inside .database p b hb
      have hheld := h.held .database p b hb
      simp only [address] at hheld ⊢
      rw [hbelow _ (Nat.add_lt_add_left hin _)]
      exact hheld
    | journal =>
      have hheld := h.held .journal p b
      simp only [address] at hheld ⊢
      rw [hbyte p (habove p b hb).1]
      rw [Contents.put_self] at hb
      split at hb
      · rw [if_pos ‹_›]
        exact Option.some.inj hb
      · rw [if_neg ‹_›]
        exact hheld hb
  · rw [hcapacity, hdatabase]
    exact habove p b hb

/-- The runs of a journal write that reach the medium meet no byte of the database. -/
theorem Stores.journalStored {live next : Live} {known : Contents} (hsound : live.Sound)
    (h : live.Stores known) {offset : Nat} {data : Bytes}
    (hcapacity : next.partition.capacity = live.partition.capacity)
    (hdatabase : next.partition.databaseSize = live.partition.databaseSize)
    (himage : next.disk.image =
      lay data live.disk.image (Blob.storedRuns live.partition offset data live.disk)) :
    next.Stores ((known.put .journal offset
      (span (Blob.storedRuns live.partition offset data live.disk)) data).cut next.partition) := by
  refine h.journalPut hcapacity hdatabase ?_ ?_ ?_
  · intro p hle hlt
    exact Blob.above_of_mem_span hsound.block_le hle hlt
  · intro x hx
    rw [himage, byte_lay_of_outside]
    intro run hrun
    have hlow := (Blob.storedRuns_bounds hsound.block_le hrun).1
    exact .inl (by omega)
  · intro p hhoused
    rw [himage, Blob.byte_storedRuns hsound.block_le _ _ _ hhoused]

/-- An erasure leaves the database alone, and of the journal nothing is known any more. -/
theorem Stores.erased {live next : Live} {known : Contents} (hsettled : live.Settled)
    (h : live.Stores known) (stored : Contents)
    (hstored : ∀ p, stored .database p = known .database p)
    (hcapacity : next.partition.capacity = live.partition.capacity)
    (hjournal : next.partition.journalSize = 0)
    (himage : next.disk.image =
      (live.disk.image.write (live.partition.capacity - blockSize) (Bytes.zeros wordSize)).write
        (live.partition.capacity - wordSize) (Bytes.zeros wordSize)) :
    next.Stores (stored.cut next.partition) := by
  have hblocks := hsettled.two_blocks
  have hword : wordSize ≤ blockSize := by decide
  refine stores_cut (fun r p b hp hb => ?_) fun p b hp _ => ?_
  · cases r with
    | database =>
      rw [hstored] at hb
      have hheld := h.held .database p b hb
      have hsize : p < live.partition.databaseSize := h.inside .database p b hb
      simp only [address] at hheld ⊢
      rw [himage, Image.byte_write, if_neg (by omega), Image.byte_write, if_neg (by omega)]
      exact hheld
    | journal =>
      have : p < next.partition.journalSize := hp
      omega
  · omega

/-- An erasure that breaks off has put a zero word at the start of the journal, or nothing. -/
theorem Stores.halfErased {live next : Live} {known : Contents} (hsettled : live.Settled)
    (h : live.Stores known) (hpartition : next.partition = live.partition)
    (himage : next.disk.image =
      live.disk.written (live.partition.capacity - blockSize) (Bytes.zeros wordSize)) :
    next.Stores ((live.stored .eraseJournal false known).cut next.partition) := by
  have hblocks := hsettled.two_blocks
  have hword : wordSize ≤ blockSize := by decide
  have hhead : Housed live.partition.capacity 0 ∧
      place live.partition.capacity 0 = live.partition.capacity - blockSize := by
    unfold Housed place blockSize at *
    omega
  simp only [stored]
  by_cases htakes : live.disk.takes (live.partition.capacity - blockSize) (Bytes.zeros wordSize)
  · rw [written, if_pos htakes] at himage
    rw [if_pos htakes]
    refine h.journalPut (by rw [hpartition]) (by rw [hpartition]) ?_ ?_ ?_
    · intro p _ hlt
      unfold Housed place blockSize wordSize at *
      omega
    · intro x hx
      rw [himage, Image.byte_write, if_neg (by omega)]
    · intro p hhoused
      have hmem := place_mem_run_iff hhead.1 hword hhoused
      rw [hhead.2] at hmem
      rw [himage, Image.byte_write_zeros]
      simp only [hmem, Bytes.getD_zeros]
  · rw [written, if_neg htakes] at himage
    rw [if_neg htakes]
    exact h.still (by rw [hpartition]) (Nat.le_of_eq (by rw [hpartition]))
      fun x _ => by rw [himage]

/-- Every change keeps what is known stored. -/
theorem Change.stores {live next : Live} {action : Action} {ok : Bool} {known : Contents}
    (hsound : live.Sound) (hsettled : live.Settled) (hchange : Change live action ok next)
    (h : live.Stores known) :
    next.Stores ((live.stored action ok known).cut next.partition) := by
  have hlong := hsound.long
  have hheader : ∀ x, blockSize ≤ x →
      (live.disk.written 0 (sizeWord live.partition.databaseSize)).byte x =
        live.disk.image.byte x := by
    intro x hx
    have hword : wordSize ≤ blockSize := by decide
    exact byte_written_of_outside (.inr (by rw [Blob.size_sizeWord]; omega))
  cases hchange with
  | read hdisk | databaseKept hdisk | journalSync hdisk =>
    exact h.still rfl (Nat.le_refl _) fun x _ => by rw [hdisk.image_eq]
  | databaseSynced _ hdisk | databaseUnsynced hdisk =>
    exact h.still rfl (Nat.le_refl _) fun x hx => by rw [hdisk.image_eq, hheader x hx]
  | faulted => exact h.still rfl (Nat.le_refl _) fun _ _ => rfl
  | @truncated region size =>
    cases region with
    | database => exact h.still rfl (Nat.min_le_left ..) fun _ _ => rfl
    | journal => exact h.still rfl (Nat.le_refl _) fun _ _ => rfl
  | databaseWritten hguard hdisk => exact h.databaseWritten hguard rfl rfl hdisk.image_eq
  | journalWritten _ _ hdisk => exact h.journalStored hsound rfl rfl hdisk.image_eq
  | journalCut hdisk => exact h.journalStored hsound rfl rfl hdisk.image_eq
  | erased htakes hdisk =>
    refine h.erased hsettled _ (fun p => ?_) rfl rfl hdisk.image_eq
    rw [stored, if_pos htakes, Contents.put_of_ne (by decide)]
  | halfErased hdisk => exact h.halfErased hsettled rfl hdisk.image_eq

end Live

end TwinRegion
