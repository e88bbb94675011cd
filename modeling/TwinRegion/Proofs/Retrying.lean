/-
TwinRegion.Proofs.Retrying — requests that fail and are made again.

A request that fails leaves the partition as it was. On the medium it may
leave a part of its work (`Live.Leaves`): some leading runs of a journal
write, the first of an erasure's two words, or the size word of a sync that
came no further. Whatever it leaves, the same request writes over when it
is made again: what a success makes of a blob (`Live.outcome`) is the same
before and after the failure (`Leaves.outcome_eq`).

Whether a writing request succeeds depends on the partition and on the
faults and the bound of the medium, but not on its bytes (`RamDisk.Akin`).
A failure changes none of these but the faults, so those under which the
second try succeeds would have let the first one succeed
(`failed_request_retried`).
-/
import TwinRegion.Proofs.Erasure

namespace TwinRegion

open TwinRegion.Partition RamDisk StepM

/-! ## Writing again -/

theorem Image.write_write (image : Image) (offset : Nat) (data : Bytes) :
    (image.write offset data).write offset data = image.write offset data := by
  apply Image.ext_byte
  · simp
  · intro x
    by_cases hin : offset ≤ x ∧ x < offset + data.size <;> simp [hin]

namespace Partition

/-- The runs decide about the bytes that they cover, and leave the others. -/
theorem byte_lay_congr {data : Bytes} {a b : Image} {runs : List Extent} {x : Nat}
    (h : (∃ run ∈ runs, run.address ≤ x ∧ x < run.address +
      (data.extract run.bufferStart (run.bufferStart + run.len)).size) ∨ a.byte x = b.byte x) :
    (lay data a runs).byte x = (lay data b runs).byte x := by
  induction runs generalizing a b with
  | nil =>
    rcases h with ⟨run, hrun, -⟩ | hsame
    · cases hrun
    · exact hsame
  | cons first rest ih =>
    apply ih
    by_cases hfirst : first.address ≤ x ∧ x < first.address +
        (data.extract first.bufferStart (first.bufferStart + first.len)).size
    · right
      rw [Image.byte_write, Image.byte_write, if_pos hfirst, if_pos hfirst]
    · rcases h with ⟨run, hrun, hcover⟩ | hsame
      · left
        rcases List.mem_cons.mp hrun with rfl | hrest
        · exact absurd hcover hfirst
        · exact ⟨run, hrest, hcover⟩
      · right
        rw [Image.byte_write, Image.byte_write, if_neg hfirst, if_neg hfirst, hsame]

/-- A byte that no run covers keeps its value. -/
theorem byte_lay_of_uncovered {data : Bytes} {image : Image} {runs : List Extent} {x : Nat}
    (h : ¬ ∃ run ∈ runs, run.address ≤ x ∧ x < run.address +
      (data.extract run.bufferStart (run.bufferStart + run.len)).size) :
    (lay data image runs).byte x = image.byte x := by
  induction runs generalizing image with
  | nil => rfl
  | cons first rest ih =>
    have hrest : ¬ ∃ run ∈ rest, run.address ≤ x ∧ x < run.address +
        (data.extract run.bufferStart (run.bufferStart + run.len)).size := by
      rintro ⟨run, hrun, hcover⟩
      exact h ⟨run, List.mem_cons_of_mem _ hrun, hcover⟩
    rw [lay, ih hrest, Image.byte_write, if_neg]
    intro hcover
    exact h ⟨first, List.mem_cons_self, hcover⟩

/-- Runs that are laid over some of themselves leave what they leave alone. -/
theorem lay_lay {data : Bytes} {image : Image} {runs part : List Extent} (hpart : part ⊆ runs)
    (hbound : ∀ run ∈ runs, run.address + run.len ≤ image.size) :
    lay data (lay data image part) runs = lay data image runs := by
  have hsize : (lay data image part).size = image.size :=
    size_lay fun run hrun => hbound run (hpart hrun)
  apply Image.ext_byte
  · rw [size_lay hbound, size_lay (by rwa [hsize]), hsize]
  · intro x
    apply byte_lay_congr
    by_cases hcover : ∃ run ∈ part, run.address ≤ x ∧ x < run.address +
        (data.extract run.bufferStart (run.bufferStart + run.len)).size
    · obtain ⟨run, hrun, hin⟩ := hcover
      exact .inl ⟨run, hpart hrun, hin⟩
    · exact .inr (byte_lay_of_uncovered hcover)

end Partition

namespace Live

variable {live next : Live} {action : Action}

/-! ## Outcomes -/

/-- The partition and the contents that an action makes when it succeeds. -/
def outcome (live : Live) : Action → Partition × Image
  | .read .. => (live.partition, live.disk.image)
  | .write .database offset data =>
    ({ live.partition with databaseSize := max live.partition.databaseSize (offset + data.size) },
      live.disk.image.write (blockSize + offset) data)
  | .write .journal offset data =>
    ({ live.partition with journalSize := max live.partition.journalSize (offset + data.size) },
      lay data live.disk.image (live.partition.extents offset data.size).runs)
  | .truncate region size => (Blob.truncate live.partition region size, live.disk.image)
  | .sync .database _ =>
    (live.partition, live.disk.image.write 0 (sizeWord live.partition.databaseSize))
  | .sync .journal _ => (live.partition, live.disk.image)
  | .eraseJournal =>
    ({ live.partition with journalSize := 0 },
      (live.disk.image.write (live.partition.capacity - blockSize) (Bytes.zeros wordSize)).write
        (live.partition.capacity - wordSize) (Bytes.zeros wordSize))
  | .setFaults _ => (live.partition, live.disk.image)

/-- The contents are what an action may leave of the medium when it fails. -/
def Leaves (live : Live) (action : Action) (image : Image) : Prop :=
  match action with
  | .write .journal offset data =>
    ∃ stored, stored <+: (live.partition.extents offset data.size).runs ∧
      (∀ run ∈ stored, live.partition.guardJournalRun run.address run.len = .ok ()) ∧
      image = lay data live.disk.image stored
  | .sync .database _ =>
    image = live.disk.image ∨
      image = live.disk.image.write 0 (sizeWord live.partition.databaseSize)
  | .eraseJournal =>
    image = live.disk.image ∨
      image = live.disk.image.write (live.partition.capacity - blockSize) (Bytes.zeros wordSize)
  | _ => image = live.disk.image

theorem Change.outcome_eq (h : Change live action true next) :
    (next.partition, next.disk.image) = live.outcome action := by
  cases h with
  | read hdisk | databaseWritten hguard hdisk | journalSync hdisk => rw [hdisk.image_eq]; rfl
  | journalWritten hall hstop hdisk => rw [hdisk.image_eq, hall]; rfl
  | truncated | faulted => rfl
  | databaseSynced htakes hdisk => rw [hdisk.image_eq, written, if_pos htakes]; rfl
  | erased htakes hdisk => rw [hdisk.image_eq]; rfl

theorem written_eq_or (disk : RamDisk) (offset : Nat) (data : Bytes) :
    disk.written offset data = disk.image ∨
      disk.written offset data = disk.image.write offset data := by
  unfold written
  split
  · exact .inr rfl
  · exact .inl rfl

/-- The runs that reach the medium are leading ones, and each was let through. -/
theorem storedRuns_leads (hsound : live.Sound) (offset : Nat) (data : Bytes) :
    Blob.storedRuns live.partition offset data live.disk <+:
        (live.partition.extents offset data.size).runs ∧
      ∀ run ∈ Blob.storedRuns live.partition offset data live.disk,
        live.partition.guardJournalRun run.address run.len = .ok () := by
  have hcapacity := hsound.capacity_lt
  have hfits := hsound.fits
  constructor
  · unfold Blob.storedRuns
    split
    · exact Blob.landed_leads ..
    · exact List.nil_prefix
  · intro run hrun
    have habove := (Blob.storedRuns_bounds hsound.block_le hrun).1
    exact guardJournalRun_eq_ok_iff.mpr ⟨Word.lt_limit_of_lt_half (by omega), habove⟩

/-- A failed action leaves the partition alone, and the medium at most begun upon. -/
theorem Change.leaves (hsound : live.Sound) (h : Change live action false next) :
    next.partition = live.partition ∧ live.Leaves action next.disk.image := by
  cases h with
  | read hdisk | databaseKept hdisk | journalSync hdisk => exact ⟨rfl, hdisk.image_eq⟩
  | @journalCut offset data disk hdisk =>
    obtain ⟨hleads, hguarded⟩ := storedRuns_leads hsound offset data
    exact ⟨rfl, _, hleads, hguarded, hdisk.image_eq⟩
  | databaseUnsynced hdisk =>
    refine ⟨rfl, ?_⟩
    rw [hdisk.image_eq]
    exact written_eq_or ..
  | halfErased hdisk =>
    refine ⟨rfl, ?_⟩
    rw [hdisk.image_eq]
    exact written_eq_or ..

/-- What a failure leaves, a success writes over. -/
theorem Leaves.outcome_eq (hsound : live.Sound) (hpartition : next.partition = live.partition)
    (h : live.Leaves action next.disk.image) : next.outcome action = live.outcome action := by
  cases action with
  | read | truncate | setFaults =>
    have himage : next.disk.image = live.disk.image := h
    simp only [outcome, hpartition, himage]
  | write region offset data =>
    cases region with
    | database =>
      have himage : next.disk.image = live.disk.image := h
      simp only [outcome, hpartition, himage]
    | journal =>
      obtain ⟨stored, hleads, -, himage⟩ := h
      have hruns : lay data next.disk.image (live.partition.extents offset data.size).runs =
          lay data live.disk.image (live.partition.extents offset data.size).runs := by
        rw [himage]
        exact lay_lay hleads.subset fun run hrun =>
          Nat.le_trans (extents_bounds hsound.block_le hrun) hsound.capacity_le
      simp only [outcome, hpartition, hruns]
  | sync region flags =>
    cases region with
    | database =>
      rcases h with himage | himage <;>
        simp only [outcome, hpartition, himage, Image.write_write]
    | journal =>
      have himage : next.disk.image = live.disk.image := h
      simp only [outcome, hpartition, himage]
  | eraseJournal =>
    rcases h with himage | himage <;> simp only [outcome, hpartition, himage, Image.write_write]

end Live

/-! ## Tries -/

namespace RamDisk

variable {same : Image → Image → Prop} {a b : RamDisk}

/-- Two media that fail the same calls, with contents that are the same as far as it matters. -/
structure Akin (same : Image → Image → Prop) (a b : RamDisk) : Prop where
  faults_eq : a.faults = b.faults
  bound_eq : a.bound = b.bound
  same : same a.image b.image

theorem alike_record (h : Akin same a b) (call : DiskCall) :
    Alike (Akin same) (record call) a (record call) b :=
  .ok rfl rfl ⟨h.faults_eq, h.bound_eq, h.same⟩

theorem alike_spendWrite (h : Akin same a b) : Alike (Akin same) spendWrite a spendWrite b := by
  refine .get_bind ?_
  rw [h.faults_eq]
  cases hleft : b.faults.writesLeft with
  | none => exact .pure h
  | some left =>
    cases left with
    | zero => exact .check h
    | succ left => exact .ok rfl rfl ⟨rfl, h.bound_eq, h.same⟩

theorem alike_write (hsame : ∀ {x y : Image} (offset : Nat) (data : Bytes), same x y →
      same (x.write offset data) (y.write offset data))
    (h : Akin same a b) (offset : Nat) (data : Bytes) :
    Alike (Akin same) (RamDisk.write offset data) a (RamDisk.write offset data) b := by
  refine (alike_record h _).bind fun _ a b h => (alike_spendWrite h).bind fun _ a b h => .get_bind ?_
  have hstore : ∀ stop, Alike (Akin same)
      (liftM (guardLength stop) >>= fun _ =>
        set { a with image := a.image.write offset data, bound := b.bound, faults := b.faults }) a
      (liftM (guardLength stop) >>= fun _ => set { b with image := b.image.write offset data }) b :=
    fun stop => .check_bind h fun _ => .ok rfl rfl ⟨rfl, rfl, hsame offset data h.same⟩
  rw [h.faults_eq, h.bound_eq]
  refine .ite (fun _ => .error rfl rfl h) fun _ => .check_bind h fun stop => ?_
  cases hbound : b.bound with
  | none =>
    rw [hbound] at hstore
    exact hstore stop
  | some bound =>
    rw [hbound] at hstore
    exact .ite (fun _ => .error rfl rfl h) fun _ => hstore stop

theorem alike_sync (h : Akin same a b) (level : SyncLevel) :
    Alike (Akin same) (RamDisk.sync level) a (RamDisk.sync level) b := by
  refine (alike_record h _).bind fun _ a b h => .get_bind ?_
  rw [h.faults_eq]
  exact .ite (fun _ => .error rfl rfl h) fun _ => .ok rfl rfl ⟨rfl, h.bound_eq, h.same⟩

theorem alike_read (hread : ∀ {x y : Image}, same x y → x = y) (h : Akin same a b)
    (offset len : Nat) :
    Alike (Akin same) (RamDisk.read offset len) a (RamDisk.read offset len) b := by
  refine (alike_record h _).bind fun _ a b h => .get_bind ?_
  rw [h.faults_eq, hread h.same]
  refine .ite (fun _ => .error rfl rfl h) fun _ => .check_bind h fun stop => ?_
  exact .ite (fun _ => .error rfl rfl h) fun _ => .pure h

/-- Whether writes go through does not depend on what is there. -/
theorem writes_match_akin : Disk.WritesMatch (Akin fun _ _ => True) where
  ready h := .pure h
  write h offset data := alike_write (fun _ _ _ => trivial) h offset data
  sync h level := alike_sync h level

theorem matches_akin : Disk.Matches (Akin (· = ·)) where
  ready h := .pure h
  length h := congrArg Image.size h.same
  read h offset len := alike_read id h offset len
  write h offset data := alike_write (fun _ _ hsame => by rw [hsame]) h offset data
  sync h level := alike_sync h level

end RamDisk

namespace Live

variable {R : RamDisk → RamDisk → Prop} {a b : Live} {action : Action}

/-- One partition beside two related media. -/
structure Beside (R : RamDisk → RamDisk → Prop) (a b : Live) : Prop where
  partition_eq : a.partition = b.partition
  disk : R a.disk b.disk

theorem alike_onDisk {α : Type} {step : Partition → StepM RamDisk α} (h : Beside R a b)
    (hstep : ∀ partition, Alike R (step partition) a.disk (step partition) b.disk) :
    Alike (Beside R) (onDisk step) a (onDisk step) b := by
  refine .get_bind ?_
  rw [h.partition_eq]
  exact (hstep b.partition).focus fun _ _ hdisk => ⟨h.partition_eq, hdisk⟩

theorem alike_setPartition_onDisk {step : Partition → StepM RamDisk Partition} (h : Beside R a b)
    (hstep : ∀ partition, Alike R (step partition) a.disk (step partition) b.disk) :
    Alike (Beside R) (do setPartition (← onDisk step); return #[] : StepM Live Bytes) a
      (do setPartition (← onDisk step); return #[]) b :=
  (alike_onDisk h hstep).bind fun _ _ _ h => .ok rfl rfl ⟨rfl, h.disk⟩

/-- An action other than a read goes alike on two media that fail the same calls. -/
theorem alike_perform (h : Beside (Akin fun _ _ => True) a b)
    (hwrites : ∀ region offset len, action ≠ .read region offset len) :
    Alike (Beside (Akin fun _ _ => True)) (perform action) a (perform action) b := by
  cases action with
  | read region offset len => exact absurd rfl (hwrites region offset len)
  | write region offset data =>
    exact alike_setPartition_onDisk h fun partition =>
      Blob.alike_write writes_match_akin partition region offset data h.disk
  | truncate region size =>
    refine .get_bind (.ok rfl rfl ⟨?_, h.disk⟩)
    rw [h.partition_eq]
  | sync region flags =>
    refine (alike_onDisk h fun partition => ?_).bind fun _ _ _ h => .pure h
    exact Blob.alike_sync writes_match_akin partition region flags h.disk
  | eraseJournal =>
    exact alike_setPartition_onDisk h fun partition =>
      Blob.alike_eraseJournal writes_match_akin partition h.disk
  | setFaults faults => exact .ok rfl rfl ⟨h.partition_eq, rfl, h.disk.bound_eq, trivial⟩

/-- A try that failed has no say in whether the next one succeeds. -/
theorem Leaves.succeeds_eq (hleaves : a.Leaves action b.disk.image)
    (hpartition : b.partition = a.partition) (hfaults : b.disk.faults = a.disk.faults)
    (hbound : b.disk.bound = a.disk.bound) : b.succeeds action = a.succeeds action := by
  unfold succeeds
  cases action with
  | read region offset len =>
    have h : Beside (Akin (· = ·)) b a := ⟨hpartition, hfaults, hbound, hleaves⟩
    have halike := alike_onDisk h fun partition =>
      Blob.alike_read matches_akin partition region offset len h.disk
    rw [show (perform (.read region offset len)).answer b = _ from halike.answer_eq]
    rfl
  | _ =>
    have h : Beside (Akin fun _ _ => True) b a := ⟨hpartition, hfaults, hbound, trivial⟩
    rw [(alike_perform h fun _ _ _ => by simp).answer_eq]

theorem Change.bound_eq {live next : Live} {ok : Bool} (h : Change live action ok next) :
    next.disk.bound = live.disk.bound := by
  cases h with
  | read hdisk | databaseWritten _ hdisk | databaseKept hdisk | journalWritten _ _ hdisk
  | journalCut hdisk | databaseSynced _ hdisk | databaseUnsynced hdisk | journalSync hdisk
  | erased _ hdisk | halfErased hdisk => exact hdisk.bound_eq
  | truncated | faulted => rfl

/-- The blob on the same medium, which fails other calls. -/
def withFaults (live : Live) (faults : DiskFaults) : Live :=
  { live with disk := { live.disk with faults := faults } }

theorem Sound.withFaults {live : Live} (h : live.Sound) (faults : DiskFaults) :
    (live.withFaults faults).Sound := ⟨h.capacity_eq, h.long, h.fits⟩

theorem outcome_withFaults (live : Live) (faults : DiskFaults) (action : Action) :
    (live.withFaults faults).outcome action = live.outcome action := by
  cases action with
  | write region offset data | sync region flags => cases region <;> rfl
  | _ => rfl

/-- A try that succeeds has the outcome, under whatever faults. -/
theorem outcome_of_succeeds {live : Live} (hsound : live.Sound) {faults : DiskFaults}
    (h : (live.withFaults faults).succeeds action = true) :
    (((live.withFaults faults).after action).partition,
      ((live.withFaults faults).after action).disk.image) = live.outcome action := by
  have hchange := change_after (hsound.withFaults faults).block_le action
  rw [h] at hchange
  rw [hchange.outcome_eq, outcome_withFaults]

/-- After a failure, a try succeeds exactly if it would have succeeded before, and then it has
the outcome that it would have had. -/
theorem outcome_of_retry {live : Live} (hsound : live.Sound) (hfails : live.succeeds action = false)
    (faults : DiskFaults) :
    ((live.after action).withFaults faults).succeeds action =
        (live.withFaults faults).succeeds action ∧
      (live.after action).outcome action = live.outcome action := by
  have hchange := change_after hsound.block_le action
  rw [hfails] at hchange
  obtain ⟨hpartition, hleaves⟩ := hchange.leaves hsound
  refine ⟨?_, hleaves.outcome_eq hsound hpartition⟩
  have hstill : (live.withFaults faults).Leaves action
      ((live.after action).withFaults faults).disk.image := by
    cases action with
    | write region offset data | sync region flags => cases region <;> exact hleaves
    | _ => exact hleaves
  exact hstill.succeeds_eq hpartition rfl hchange.bound_eq

end Live

/-! ## Requests -/

namespace Request

/-- The request only tells the medium which calls to fail from now on. -/
def Tampers (medium : String) (request : Request) : Prop :=
  ∃ faults, request = .setFaults medium faults

end Request

/-- Whatever is tampered with, the partition and the contents stay. -/
theorem Live.exists_run_tampers (live : Live) {medium : String} {changes : List Request}
    (h : ∀ request ∈ changes, request.Tampers medium) :
    ∃ faults, live.run (changes.map Request.action) = live.withFaults faults := by
  induction changes generalizing live with
  | nil => exact ⟨live.disk.faults, rfl⟩
  | cons request rest ih =>
    obtain ⟨faults, rfl⟩ := h request List.mem_cons_self
    obtain ⟨last, hlast⟩ := ih (live.withFaults faults) fun other hother =>
      h other (List.mem_cons_of_mem _ hother)
    refine ⟨last, ?_⟩
    rw [List.map_cons, Live.run_cons, Request.action, Live.after_of_run_ok (Live.run_setFaults ..)]
    exact hlast

namespace Vfs

variable {path medium : String} {id : BlobId} {vfs opened : Vfs} {live : Live} {request : Request}

/-- A request succeeds exactly if its action does. -/
theorem Serves.succeeds_iff (hserves : Serves path id medium vfs live)
    (habout : request.About path id medium) :
    (∃ bytes, request.perform.answer vfs = .ok bytes) ↔ live.succeeds request.action = true := by
  rw [(alike_perform hserves request habout).answer_eq, Live.succeeds]
  cases (Live.perform request.action).answer live with
  | ok bytes => simp [Except.isOk, Except.toBool]
  | error e => simp [Except.isOk, Except.toBool]

theorem Serves.run_setFaults (hserves : Serves path id medium vfs live) (faults : DiskFaults) :
    Serves path id medium (vfs.run [.setFaults medium faults]) (live.withFaults faults) := by
  have habout : (Request.setFaults medium faults).About path id medium := rfl
  have hrun := serves_run hserves (List.forall_mem_singleton.mpr habout)
  rwa [List.map_singleton, Live.run_cons, Live.run_nil, Request.action,
    Live.after_of_run_ok (Live.run_setFaults ..)] at hrun

theorem Serves.run_tampers (hserves : Serves path id medium vfs live) {changes : List Request}
    (h : ∀ request ∈ changes, request.Tampers medium) :
    ∃ faults, Serves path id medium (vfs.run changes) (live.withFaults faults) := by
  obtain ⟨faults, hfaults⟩ := live.exists_run_tampers h
  refine ⟨faults, hfaults ▸ serves_run hserves fun request hrequest => ?_⟩
  obtain ⟨faults, rfl⟩ := h request hrequest
  rfl

/-- A request to an opened blob that fails leaves the partition as it was, and the medium but for
what `Live.Leaves` tells. If it is then made again and succeeds, with the faults changed or not, it
could have succeeded the first time; and wherever it does, it makes the same partition and the same
contents of the blob. -/
theorem failed_request_retried {handle : Handle} {before : List Request} {e : Failure}
    (hnew : vfs.registry.lookup? path = none)
    (hopen : (openVia path .database fun _ => pure (.ram medium)).run vfs = .ok handle opened)
    (hbefore : ∀ request ∈ before, request.About path handle.blob medium)
    (habout : request.About path handle.blob medium)
    (hfails : request.perform.answer (opened.run before) = .error e) :
    let held := opened.run before
    let failed := request.perform.reached held
    ∃ partition, held.registry.partition? path = some partition ∧
      failed.registry.partition? path = some partition ∧
      (Live.mk partition (held.world.medium medium)).Leaves request.action
        (failed.world.medium medium).image ∧
      ∀ changes bytes, (∀ change ∈ changes, change.Tampers medium) →
        request.perform.answer (failed.run changes) = .ok bytes →
        (∃ faults bytes, request.perform.answer (held.run [.setFaults medium faults]) = .ok bytes) ∧
        ∀ others bytes, (∀ change ∈ others, change.Tampers medium) →
          request.perform.answer (held.run others) = .ok bytes →
          let retried := request.perform.reached (failed.run changes)
          let first := request.perform.reached (held.run others)
          ∃ next, retried.registry.partition? path = some next ∧
            first.registry.partition? path = some next ∧
            (retried.world.medium medium).image = (first.world.medium medium).image := by
  intro held failed
  obtain ⟨start, hmount, hserves⟩ := serves_of_openVia hnew hopen
  have hheld := serves_run hserves hbefore
  have hsound := Live.sound_run (Live.sound_of_mount hmount) (before.map Request.action)
  generalize start.run (before.map Request.action) = live at hheld hsound
  have hfails : live.succeeds request.action = false := by
    rw [Live.succeeds, ← (alike_perform hheld request habout).answer_eq, hfails]
    rfl
  have hfailed : Serves path handle.blob medium failed (live.after request.action) :=
    (alike_perform hheld request habout).reached_rel
  have hchange := Live.change_after hsound.block_le request.action
  rw [hfails] at hchange
  obtain ⟨hpartition, hleaves⟩ := hchange.leaves hsound
  refine ⟨live.partition, hheld.partition?_eq, hpartition ▸ hfailed.partition?_eq, ?_, ?_⟩
  · rw [hheld.medium_eq, hfailed.medium_eq]
    exact hleaves
  intro changes bytes hchanges hagain
  obtain ⟨faults, hretry⟩ := hfailed.run_tampers hchanges
  have hsucceeds := (hretry.succeeds_iff habout).mp ⟨bytes, hagain⟩
  obtain ⟨hsame, houtcome⟩ := Live.outcome_of_retry hsound hfails faults
  constructor
  · exact ⟨faults, ((hheld.run_setFaults faults).succeeds_iff habout).mpr (hsame ▸ hsucceeds)⟩
  intro others bytes hothers hanswer retried first
  obtain ⟨otherFaults, hfirst⟩ := hheld.run_tampers hothers
  have hfirstSucceeds := (hfirst.succeeds_iff habout).mp ⟨bytes, hanswer⟩
  have hretried := (alike_perform hretry request habout).reached_rel
  have hdone := (alike_perform hfirst request habout).reached_rel
  have hresult := Live.outcome_of_succeeds hsound hfirstSucceeds
  have hagain := Live.outcome_of_succeeds (hchange.sound hsound) hsucceeds
  rw [houtcome, ← hresult] at hagain
  obtain ⟨hpartitions, himages⟩ := Prod.mk.inj hagain
  refine ⟨_, hretried.partition?_eq, hpartitions ▸ hdone.partition?_eq, ?_⟩
  rw [hretried.medium_eq, hdone.medium_eq]
  exact himages

/-- An erasure that breaks off half-way keeps the partition, and goes through on a second try. -/
theorem failed_request_retried_erasure :
    ∃ (handle : Handle) (opened : Vfs),
      (openVia "a" .database fun _ => pure (.ram "m")).run .initial = .ok handle opened ∧
      let erasure : Request := .remove "a-journal"
      let held := opened.run [.setFaults "m" (writesLeft 1)]
      let failed := erasure.perform.reached held
      erasure.perform.answer held = .error (.refused (injected "nth write failure")) ∧
      failed.registry.partition? "a" = some (.blank standardCapacity) ∧
      (erasure.perform.answer (failed.run [.setFaults "m" .none])).isOk = true ∧
      ∃ faults bytes, erasure.perform.answer (held.run [.setFaults "m" faults]) = .ok bytes := by
  obtain ⟨handle, opened, hopen, hserves⟩ := openVia_initial "a" "m"
  refine ⟨handle, opened, hopen, ?_⟩
  intro erasure held failed
  have herasure : erasure.About "a" handle.blob "m" := by
    show splitJournalName "a-journal" = ("a", true)
    decide
  have hcut : ∀ request ∈ [Request.setFaults "m" (writesLeft 1)],
      request.About "a" handle.blob "m" := List.forall_mem_singleton.mpr rfl
  have hheld := hserves.run_setFaults (writesLeft 1)
  obtain ⟨disk, hrun, -, -⟩ := @Live.run_eraseJournal_cut (Live.fresh.withFaults (writesLeft 1)) rfl
    rfl (by decide) (by decide)
  have hfails := (alike_perform hheld erasure herasure).answer_eq.trans
    (run_eq_error_iff.mp hrun).1
  obtain ⟨partition, hpartition, hkept, -, hretry⟩ := @failed_request_retried "a" "m" .initial opened
    erasure handle [.setFaults "m" (writesLeft 1)] _ (lookup?_initial "a") hopen hcut herasure hfails
  obtain rfl : partition = .blank standardCapacity :=
    Option.some.inj (hpartition.symm.trans hheld.partition?_eq)
  -- the same calls on a medium that fails none of them
  have hfailed : Serves "a" handle.blob "m" failed _ :=
    (alike_perform hheld erasure herasure).reached_rel
  have hcutShort : (Live.fresh.withFaults (writesLeft 1)).succeeds .eraseJournal = false := by
    rw [Live.succeeds, (run_eq_error_iff.mp hrun).1]
    rfl
  obtain ⟨hsame, -⟩ := Live.outcome_of_retry (Live.sound_fresh.withFaults (writesLeft 1)) hcutShort
    .none
  have hhealthy : ((Live.fresh.withFaults (writesLeft 1)).withFaults .none).disk.Healthy := ⟨rfl, rfl⟩
  have hgood := Live.succeeds_of_run_ok (Live.run_eraseJournal hhealthy (by decide) (by decide))
  obtain ⟨bytes, hagain⟩ := ((hfailed.run_setFaults .none).succeeds_iff herasure).mpr
    (hsame.trans hgood)
  refine ⟨hfails, hkept, by rw [hagain]; rfl, ?_⟩
  exact (hretry [.setFaults "m" .none] bytes (List.forall_mem_singleton.mpr ⟨_, rfl⟩) hagain).1

end Vfs

end TwinRegion
