/-
TwinRegion.Proofs.Live — runs of an open blob.

`Live` is a partition beside the medium that it partitions, and an `Action`
is one thing that is done to it. `Change` lists everything that an action
can do, one constructor for each action and each way it ends, and
`change_after` says that nothing else happens. What holds in every reachable
state is derived from `Change` alone.

The first such invariant is `Sound`: the blob is as long as its medium
allows and the database leaves room for the header. Every blob that was
opened is sound (`sound_of_mount`), and it stays sound, on a medium of the
same length, through every run (`sound_run`).
-/
import TwinRegion.Proofs.Writing
import TwinRegion.Proofs.Reading
import TwinRegion.Proofs.Mounting

namespace TwinRegion

open TwinRegion.Partition RamDisk

/-- An open blob: its partition beside its medium. -/
structure Live where
  partition : Partition
  disk : RamDisk

/-- What is done to an open blob, or to its medium behind its back. -/
inductive Action where
  | read (region : Region) (offset len : Nat)
  | write (region : Region) (offset : Nat) (data : Bytes)
  | truncate (region : Region) (size : Nat)
  | sync (region : Region) (flags : Int32)
  | eraseJournal
  /-- Tells the medium which calls to fail from now on. -/
  | setFaults (faults : DiskFaults)

namespace Live

/-! ## Actions -/

/-- Runs a step on the medium, given the partition. -/
def onDisk {α : Type} (step : Partition → StepM RamDisk α) : StepM Live α := do
  let live ← get
  StepM.focus Live.disk (fun disk live => { live with disk := disk }) (step live.partition)

def setPartition (partition : Partition) : StepM Live Unit :=
  modify fun live => { live with partition := partition }

/-- Does an action. A read answers with the bytes read, everything else with none. -/
def perform : Action → StepM Live Bytes
  | .read region offset len => onDisk fun partition => Blob.read partition region offset len
  | .write region offset data => do
    setPartition (← onDisk fun partition => Blob.write partition region offset data)
    return #[]
  | .truncate region size => do
    setPartition (Blob.truncate (← get).partition region size)
    return #[]
  | .sync region flags => do
    onDisk fun partition => Blob.sync partition region flags
    return #[]
  | .eraseJournal => do
    setPartition (← onDisk Blob.eraseJournal)
    return #[]
  | .setFaults faults => do
    modify fun live => { live with disk := { live.disk with faults := faults } }
    return #[]

/-- Whether an action succeeds. -/
def succeeds (live : Live) (action : Action) : Bool := ((perform action).answer live).isOk

/-- The blob after an action, successful or not. -/
def after (live : Live) (action : Action) : Live := (perform action).reached live

/-- The blob after actions done one after the other. -/
def run (live : Live) (actions : List Action) : Live := actions.foldl after live

@[simp] theorem run_nil (live : Live) : live.run [] = live := rfl

@[simp] theorem run_cons (live : Live) (action : Action) (rest : List Action) :
    live.run (action :: rest) = (live.after action).run rest := rfl

theorem run_append (live : Live) (actions more : List Action) :
    live.run (actions ++ more) = (live.run actions).run more := List.foldl_append

/-- A step on the medium leaves the partition alone. -/
theorem ends_onDisk {α : Type} (step : Partition → StepM RamDisk α) {live : Live}
    {onValue : α → RamDisk → Prop} {onFailure : Failure → RamDisk → Prop}
    (h : (step live.partition).Ends live.disk onValue onFailure) :
    (onDisk step).Ends live
      (fun a next => ∃ disk, next = ⟨live.partition, disk⟩ ∧ onValue a disk)
      (fun e next => ∃ disk, next = ⟨live.partition, disk⟩ ∧ onFailure e disk) :=
  .get_bind h.focus

/-! ## Changes -/

/-- What an action can do to a blob: the flag tells whether it succeeds, and the last
index is the blob that it leaves. -/
inductive Change (live : Live) : Action → Bool → Live → Prop where
  | read {region : Region} {offset len : Nat} {ok : Bool} {disk : RamDisk}
      (hdisk : Became live.disk live.disk.image disk) :
      Change live (.read region offset len) ok ⟨live.partition, disk⟩
  | databaseWritten {offset : Nat} {data : Bytes} {disk : RamDisk}
      (hguard : live.partition.guardDatabaseWrite offset data.size = .ok ())
      (hdisk : Became live.disk (live.disk.image.write (blockSize + offset) data) disk) :
      Change live (.write .database offset data) true
        ⟨{ live.partition with
            databaseSize := max live.partition.databaseSize (offset + data.size) }, disk⟩
  | databaseKept {offset : Nat} {data : Bytes} {disk : RamDisk}
      (hdisk : Became live.disk live.disk.image disk) :
      Change live (.write .database offset data) false ⟨live.partition, disk⟩
  | journalWritten {offset : Nat} {data : Bytes} {disk : RamDisk}
      (hall : Blob.storedRuns live.partition offset data live.disk =
        (live.partition.extents offset data.size).runs)
      (hstop : (live.partition.extents offset data.size).stop = none)
      (hdisk : Became live.disk
        (lay data live.disk.image (Blob.storedRuns live.partition offset data live.disk)) disk) :
      Change live (.write .journal offset data) true
        ⟨{ live.partition with
            journalSize := max live.partition.journalSize (offset + data.size) }, disk⟩
  | journalCut {offset : Nat} {data : Bytes} {disk : RamDisk}
      (hdisk : Became live.disk
        (lay data live.disk.image (Blob.storedRuns live.partition offset data live.disk)) disk) :
      Change live (.write .journal offset data) false ⟨live.partition, disk⟩
  | truncated {region : Region} {size : Nat} :
      Change live (.truncate region size) true
        ⟨Blob.truncate live.partition region size, live.disk⟩
  | databaseSynced {flags : Int32} {disk : RamDisk}
      (htakes : live.disk.takes 0 (sizeWord live.partition.databaseSize) = true)
      (hdisk : Became live.disk
        (live.disk.written 0 (sizeWord live.partition.databaseSize)) disk) :
      Change live (.sync .database flags) true ⟨live.partition, disk⟩
  | databaseUnsynced {flags : Int32} {disk : RamDisk}
      (hdisk : Became live.disk
        (live.disk.written 0 (sizeWord live.partition.databaseSize)) disk) :
      Change live (.sync .database flags) false ⟨live.partition, disk⟩
  | journalSync {flags : Int32} {ok : Bool} {disk : RamDisk}
      (hdisk : Became live.disk live.disk.image disk) :
      Change live (.sync .journal flags) ok ⟨live.partition, disk⟩
  | erased {disk : RamDisk}
      (htakes : live.disk.takes (live.partition.capacity - blockSize) (Bytes.zeros wordSize) = true)
      (hdisk : Became live.disk
        ((live.disk.image.write (live.partition.capacity - blockSize) (Bytes.zeros wordSize)).write
          (live.partition.capacity - wordSize) (Bytes.zeros wordSize)) disk) :
      Change live .eraseJournal true ⟨{ live.partition with journalSize := 0 }, disk⟩
  | halfErased {disk : RamDisk}
      (hdisk : Became live.disk
        (live.disk.written (live.partition.capacity - blockSize) (Bytes.zeros wordSize)) disk) :
      Change live .eraseJournal false ⟨live.partition, disk⟩
  | faulted {faults : DiskFaults} :
      Change live (.setFaults faults) true
        ⟨live.partition, { live.disk with faults := faults }⟩

/-- A step on the medium that answers with the partition from then on. -/
theorem ends_setPartition {step : Partition → StepM RamDisk Partition} {live : Live} {action : Action}
    {onValue : Partition → RamDisk → Prop} {onFailure : Failure → RamDisk → Prop}
    (h : (step live.partition).Ends live.disk onValue onFailure)
    (hvalue : ∀ next disk, onValue next disk → Change live action true ⟨next, disk⟩)
    (hfailure : ∀ e disk, onFailure e disk → Change live action false ⟨live.partition, disk⟩) :
    (do setPartition (← onDisk step); return #[] : StepM Live Bytes).Ends live
      (fun _ next => Change live action true next) (fun _ next => Change live action false next) := by
  refine (ends_onDisk step h).bind ?_ ?_
  · rintro e _ ⟨disk, rfl, hdisk⟩
    exact hfailure e disk hdisk
  · rintro next _ ⟨disk, rfl, hdisk⟩
    exact .modify_bind (.pure (hvalue next disk hdisk))

/-- Every action does what `Change` says. -/
theorem ends_perform {live : Live} (h : blockSize ≤ live.partition.capacity) (action : Action) :
    (perform action).Ends live
      (fun _ next => Change live action true next) (fun _ next => Change live action false next) := by
  cases action with
  | read region offset len =>
    refine (ends_onDisk (fun partition => Blob.read partition region offset len)
      (Blob.ends_read live.partition region offset len live.disk)).mono ?_ ?_
    · rintro _ _ ⟨disk, rfl, -, hdisk⟩
      exact .read hdisk
    · rintro _ _ ⟨disk, rfl, hdisk⟩
      exact .read hdisk
  | write region offset data =>
    cases region with
    | database =>
      refine ends_setPartition (Blob.ends_write_database live.partition offset data live.disk) ?_ ?_
      · rintro next disk ⟨hguard, rfl, hdisk⟩
        exact .databaseWritten hguard hdisk
      · rintro e disk ⟨hdisk, -⟩
        exact .databaseKept hdisk
    | journal =>
      refine ends_setPartition (Blob.ends_write_journal live.partition offset data live.disk) ?_ ?_
      · rintro next disk ⟨hall, hstop, rfl, hdisk⟩
        exact .journalWritten hall hstop (hall ▸ hdisk)
      · exact fun e disk hdisk => .journalCut hdisk
  | truncate region size =>
    exact .get_bind (.modify_bind (.pure .truncated))
  | sync region flags =>
    cases region with
    | database =>
      refine (ends_onDisk (fun partition => Blob.sync partition .database flags)
        (Blob.ends_sync_database live.partition flags live.disk)).bind ?_ ?_
      · rintro _ _ ⟨disk, rfl, hdisk⟩
        exact .databaseUnsynced hdisk
      · rintro _ _ ⟨disk, rfl, htakes, hdisk⟩
        exact .pure (.databaseSynced htakes hdisk)
    | journal =>
      refine (ends_onDisk (fun partition => Blob.sync partition .journal flags)
        (Blob.ends_sync_journal live.partition flags live.disk)).bind ?_ ?_
      · rintro _ _ ⟨disk, rfl, hdisk⟩
        exact .journalSync hdisk
      · rintro _ _ ⟨disk, rfl, hdisk⟩
        exact .pure (.journalSync hdisk)
  | eraseJournal =>
    refine ends_setPartition (Blob.ends_eraseJournal h live.disk) ?_ ?_
    · rintro next disk ⟨htakes, rfl, hdisk⟩
      exact .erased htakes hdisk
    · exact fun e disk hdisk => .halfErased hdisk
  | setFaults faults =>
    exact .modify_bind (.pure .faulted)

theorem change_after {live : Live} (h : blockSize ≤ live.partition.capacity) (action : Action) :
    Change live action (live.succeeds action) (live.after action) := by
  have hends := ends_perform h action
  unfold succeeds after
  cases hanswer : (perform action).answer live with
  | ok bytes => exact hends.value bytes hanswer
  | error e => exact hends.failure e hanswer

/-! ## Soundness -/

/-- The blob takes as much of its medium as it may, and the header and the database
fit into it. -/
structure Sound (live : Live) : Prop where
  capacity_eq : live.partition.capacity = min live.disk.image.size standardCapacity
  long : 2 * blockSize ≤ live.partition.capacity
  fits : live.partition.databaseSize + blockSize ≤ live.partition.capacity

theorem Sound.block_le {live : Live} (h : live.Sound) : blockSize ≤ live.partition.capacity :=
  Nat.le_trans (by decide) h.long

theorem Sound.capacity_le {live : Live} (h : live.Sound) :
    live.partition.capacity ≤ live.disk.image.size :=
  h.capacity_eq ▸ Nat.min_le_left ..

theorem Sound.capacity_lt {live : Live} (h : live.Sound) : live.partition.capacity < 1 <<< 32 :=
  Nat.lt_of_le_of_lt (h.capacity_eq ▸ Nat.min_le_right ..) (by decide)

/-- A blob that was opened is sound. -/
theorem sound_of_mount {name : String} {disk : RamDisk} {start : Live}
    (h : (Blob.mount name : StepM RamDisk Partition).run disk = .ok start.partition start.disk) :
    start.Sound := by
  obtain ⟨hanswer, hreached⟩ := StepM.run_eq_ok_iff.mp h
  have hends := (Blob.ends_mount name disk).value _ hanswer
  rw [hreached] at hends
  rcases hends with ⟨hempty, hpartition, hdisk⟩ | ⟨⟨hlong, hfit⟩, hpartition, hdisk⟩
  · have hsize : start.disk.image.size = standardCapacity := by
      rw [hdisk.image_eq, Image.size_write, hempty]
      decide
    constructor <;> simp only [hpartition, hsize, Partition.blank] <;> decide
  · refine ⟨?_, ?_, ?_⟩
    · rw [hpartition, hdisk.image_eq]
      rfl
    · rw [hpartition]
      exact Nat.le_min.mpr ⟨hlong, by decide⟩
    · rw [hpartition]
      exact hfit

/-- A blob that was opened on an empty medium is blank. -/
theorem partition_of_mount {name : String} {disk : RamDisk} {start : Live}
    (h : (Blob.mount name : StepM RamDisk Partition).run disk = .ok start.partition start.disk)
    (hempty : disk.image.size = 0) : start.partition = .blank standardCapacity := by
  obtain ⟨hanswer, -⟩ := StepM.run_eq_ok_iff.mp h
  rcases (Blob.ends_mount name disk).value _ hanswer with ⟨-, hpartition, -⟩ | ⟨⟨hlong, -⟩, -, -⟩
  · exact hpartition
  · rw [hempty] at hlong
    exact absurd hlong (by decide)

/-- A journal that an opening finds is taken to be as long as the blob. -/
theorem journalSize_le_of_mount {name : String} {disk : RamDisk} {start : Live}
    (h : (Blob.mount name : StepM RamDisk Partition).run disk = .ok start.partition start.disk) :
    start.partition.journalSize ≤ start.partition.capacity := by
  obtain ⟨hanswer, -⟩ := StepM.run_eq_ok_iff.mp h
  rcases (Blob.ends_mount name disk).value _ hanswer with ⟨-, hpartition, -⟩ | ⟨-, hpartition, -⟩
  · rw [hpartition]
    exact Nat.zero_le _
  · rw [hpartition]
    simp only [Blob.found]
    split
    · exact Nat.le_refl _
    · exact Nat.zero_le _

theorem Change.capacity_eq {live next : Live} {action : Action} {ok : Bool}
    (h : Change live action ok next) : next.partition.capacity = live.partition.capacity := by
  cases h with
  | @truncated region size => cases region <;> rfl
  | _ => rfl

/-- Everything is written inside the blob. -/
theorem Change.size_eq {live next : Live} {action : Action} {ok : Bool} (hsound : live.Sound)
    (h : Change live action ok next) : next.disk.image.size = live.disk.image.size := by
  have hcap := hsound.capacity_le
  have hlong := hsound.long
  have hword : wordSize ≤ blockSize := by decide
  have hruns : ∀ {offset : Nat} {data : Bytes},
      (lay data live.disk.image (Blob.storedRuns live.partition offset data live.disk)).size =
        live.disk.image.size :=
    size_lay fun run hrun => Nat.le_trans (Blob.storedRuns_bounds hsound.block_le hrun).2 hcap
  cases h with
  | read hdisk | databaseKept hdisk | journalSync hdisk => rw [hdisk.image_eq]
  | databaseWritten hguard hdisk =>
    have hguard := guardDatabaseWrite_eq_ok_iff.mp hguard
    rw [hdisk.image_eq, Image.size_write]
    omega
  | journalWritten hall hstop hdisk => rw [hdisk.image_eq, hruns]
  | journalCut hdisk => rw [hdisk.image_eq, hruns]
  | truncated => rfl
  | databaseSynced htakes hdisk =>
    rw [hdisk.image_eq, size_written (by rw [Blob.size_sizeWord]; omega)]
  | databaseUnsynced hdisk =>
    rw [hdisk.image_eq, size_written (by rw [Blob.size_sizeWord]; omega)]
  | erased htakes hdisk =>
    rw [hdisk.image_eq]
    simp only [Image.size_write, Bytes.size_zeros]
    omega
  | halfErased hdisk =>
    rw [hdisk.image_eq, size_written (by rw [Bytes.size_zeros]; omega)]
  | faulted => rfl

theorem Change.sound {live next : Live} {action : Action} {ok : Bool} (hsound : live.Sound)
    (h : Change live action ok next) : next.Sound := by
  refine ⟨?_, ?_, ?_⟩
  · rw [h.capacity_eq, h.size_eq hsound]
    exact hsound.capacity_eq
  · rw [h.capacity_eq]
    exact hsound.long
  · have hfits := hsound.fits
    cases h with
    | databaseWritten hguard hdisk =>
      have hguard := guardDatabaseWrite_eq_ok_iff.mp hguard
      dsimp only
      omega
    | @truncated region size =>
      cases region with
      | database => exact Nat.le_trans (Nat.add_le_add_right (Nat.min_le_left ..) _) hfits
      | journal => exact hfits
    | _ => exact hfits

theorem sound_after {live : Live} (h : live.Sound) (action : Action) : (live.after action).Sound :=
  (change_after h.block_le action).sound h

/-- The database is no longer than it may grow. -/
def Modest (live : Live) : Prop :=
  live.partition.databaseSize ≤ databaseCeiling live.partition.capacity

theorem Change.modest {live next : Live} {action : Action} {ok : Bool} (h : live.Modest)
    (hchange : Change live action ok next) : next.Modest := by
  cases hchange with
  | databaseWritten hguard hdisk =>
    exact Nat.max_le.mpr ⟨h, (guardDatabaseWrite_eq_ok_iff.mp hguard).2.2.2.1⟩
  | @truncated region size =>
    cases region with
    | database => exact Nat.le_trans (Nat.min_le_left ..) h
    | journal => exact h
  | _ => exact h

/-! ## Runs -/

section runs

variable {γ : Type} {keep : Live → Action → γ → γ}

/-- What a run keeps on the side, a step at a time. -/
def track (keep : Live → Action → γ → γ) (live : Live) (kept : γ) : List Action → γ
  | [] => kept
  | action :: rest => track keep (live.after action) (keep live action kept) rest

theorem track_append (keep : Live → Action → γ → γ) (live : Live) (kept : γ)
    (actions more : List Action) :
    track keep live kept (actions ++ more) =
      track keep (live.run actions) (track keep live kept actions) more := by
  induction actions generalizing live kept with
  | nil => rfl
  | cons action rest ih => exact ih (live.after action) (keep live action kept)

/-- Every action of a run meets a condition when its turn comes. -/
def Meets (live : Live) (met : Live → Action → Prop) : List Action → Prop
  | [] => True
  | action :: rest => met live action ∧ (live.after action).Meets met rest

theorem meets_iff {live : Live} {met : Live → Action → Prop} {actions : List Action} :
    live.Meets met actions ↔
      ∀ before action rest, actions = before ++ action :: rest →
        met (live.run before) action := by
  induction actions generalizing live with
  | nil => simp [Meets]
  | cons action rest ih =>
    rw [Meets, ih]
    constructor
    · rintro ⟨hmet, hrest⟩ (_ | ⟨first, before⟩) other more h
      · obtain ⟨rfl, rfl⟩ := List.cons.inj h
        exact hmet
      · obtain ⟨rfl, htail⟩ := List.cons.inj h
        exact hrest before other more htail
    · intro h
      exact ⟨h [] action rest rfl, fun before other more hrest =>
        h (action :: before) other more (congrArg (action :: ·) hrest)⟩

/-- What every step from a sound blob preserves, if a condition is met at its turn, holds at the end
of a run that meets it. -/
theorem track_along (P : Live → γ → Prop) (met : Live → Action → Prop)
    (hstep : ∀ live action kept, live.Sound → met live action → P live kept →
      P (live.after action) (keep live action kept))
    {live : Live} {kept : γ} (hsound : live.Sound) (hstart : P live kept) {actions : List Action}
    (hmeets : live.Meets met actions) : P (live.run actions) (track keep live kept actions) := by
  induction actions generalizing live kept with
  | nil => exact hstart
  | cons action rest ih =>
    exact ih (sound_after hsound action) (hstep live action kept hsound hmeets.1 hstart) hmeets.2

/-- A condition on the actions alone is met if all of them meet it. -/
theorem track_invariant (P : Live → γ → Prop) (allowed : Action → Prop)
    (hstep : ∀ live action kept, live.Sound → allowed action → P live kept →
      P (live.after action) (keep live action kept))
    {live : Live} {kept : γ} (hsound : live.Sound) (hstart : P live kept) {actions : List Action}
    (hallowed : ∀ action ∈ actions, allowed action) :
    P (live.run actions) (track keep live kept actions) :=
  track_along P (fun _ => allowed) hstep hsound hstart (meets_iff.mpr fun before action _ h =>
    hallowed action (h ▸ List.mem_append_right before List.mem_cons_self))

/-- What every action on a sound blob preserves holds after every run. -/
theorem run_invariant (P : Live → Prop)
    (hstep : ∀ live action, live.Sound → P live → P (live.after action)) {live : Live}
    (hsound : live.Sound) (hstart : P live) (actions : List Action) : P (live.run actions) :=
  @track_invariant Unit (fun _ _ _ => ()) (fun live _ => P live) (fun _ => True)
    (fun live action _ hsound _ h => hstep live action hsound h) live () hsound hstart actions
    fun _ _ => trivial

end runs

theorem sound_run {live : Live} (h : live.Sound) (actions : List Action) : (live.run actions).Sound :=
  run_invariant Sound (fun _ action _ h => sound_after h action) h h actions

theorem modest_run {live : Live} (hsound : live.Sound) (h : live.Modest) (actions : List Action) :
    (live.run actions).Modest :=
  run_invariant Modest (fun _ action hsound h => (change_after hsound.block_le action).modest h)
    hsound h actions

/-- A run leaves the length of the blob and of its medium alone. -/
theorem lengths_run {live : Live} (h : live.Sound) (actions : List Action) :
    (live.run actions).partition.capacity = live.partition.capacity ∧
      (live.run actions).disk.image.size = live.disk.image.size := by
  refine run_invariant (fun next => next.partition.capacity = live.partition.capacity ∧
    next.disk.image.size = live.disk.image.size) ?_ h ⟨rfl, rfl⟩ actions
  rintro next action hsound ⟨hcapacity, hsize⟩
  have hchange := change_after hsound.block_le action
  exact ⟨hchange.capacity_eq.trans hcapacity, (hchange.size_eq hsound).trans hsize⟩

end Live

end TwinRegion
