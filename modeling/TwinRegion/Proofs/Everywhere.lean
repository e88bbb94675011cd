/-
TwinRegion.Proofs.Everywhere — what holds of every record.

Records come from openings and change in few ways, so what holds of all of
them (`Registry.All`) is kept if a mounted blob has it and each of these
ways keeps it: `all_openVia`, `all_close` and `Request.all_perform`, and
from them `Session.all_run` for all that the users of a file system can do.

The first thing that holds of every record is that its partition is formed:
the blob has its two blocks and is no longer than a whole one, and the
database fits (`Session.formed_run`).
-/
import TwinRegion.Proofs.HotJournal
import TwinRegion.Proofs.Session

namespace TwinRegion

open StepM Vfs TwinRegion.Partition

/-! ## Records -/

namespace Registry

variable {registry : Registry} {P Q : BlobRecord → Prop}

/-- Something holds of every record, open or not. -/
def All (P : BlobRecord → Prop) (registry : Registry) : Prop :=
  ∀ id record, registry.record? id = some record → P record

theorem all_empty : empty.All P := by
  intro id record h
  simp [empty, record?] at h

theorem All.mono (h : registry.All P) (hPQ : ∀ record, P record → Q record) : registry.All Q :=
  fun id record hrecord => hPQ record (h id record hrecord)

theorem All.modifyRecord (h : registry.All P) {id : BlobId} {f : BlobRecord → BlobRecord}
    (hf : ∀ record, registry.record? id = some record → P (f record)) :
    (registry.modifyRecord id f).All P := by
  intro other record hrecord
  by_cases hid : id = other
  · subst hid
    rw [record?_modifyRecord] at hrecord
    obtain ⟨old, hold, rfl⟩ := Option.map_eq_some_iff.mp hrecord
    exact hf old hold
  · rw [record?_modifyRecord_of_ne _ hid] at hrecord
    exact h other record hrecord

theorem All.enter (h : registry.All P) (name : String) {record : BlobRecord} (hrecord : P record) :
    (registry.enter name record).2.All P := by
  intro id other hother
  rw [record?_enter] at hother
  split at hother
  · cases hother
    exact hrecord
  · exact h id other hother

/-- Names make no difference to the records. -/
theorem All.unname (h : registry.All P) (name : String) : (registry.unname name).All P := h

end Registry

/-! ## Steps -/

namespace Vfs

variable {vfs : Vfs} {id : BlobId} {P : BlobRecord → Prop}

theorem all_settle (h : vfs.registry.All P) {partition : Partition} {a : Attached}
    (hsettled : ∀ record, vfs.registry.record? id = some record →
      P { record with device := a.device, partition := partition }) :
    (settle id partition a vfs).registry.All P := h.modifyRecord hsettled

/-- An opening keeps what one more reference does not spoil and every mounted blob has. -/
theorem all_openVia (h : vfs.registry.All P) (path : String) (region : Region)
    (openDevice : String → StepM World Device)
    (hretained : ∀ record, P record → P { record with refs := record.refs + 1 })
    (hmounted : ∀ (name : String) (a : Attached), (Blob.mount name : StepM Attached Partition).Ends a
      (fun partition a' => P ⟨name, a'.device, partition, 1⟩) (fun _ _ => True)) :
    ((openVia path region openDevice).reached vfs).registry.All P := by
  cases hname : vfs.registry.lookup? (blobName path region) with
  | some id =>
    rw [(run_eq_ok_iff.mp (openVia_known hname)).2]
    exact h.modifyRecord fun record hrecord => hretained record (h id record hrecord)
  | none =>
    cases region with
    | journal =>
      rw [(run_eq_error_iff.mp (openVia_alone hname)).2]
      exact h
    | database =>
      cases hopen : (openVia path .database openDevice).run vfs with
      | error e vfs' =>
        rw [(run_eq_error_iff.mp hopen).2, registry_of_openVia_error hopen]
        exact h
      | ok handle opened =>
        obtain ⟨device, world, partition, a, -, hmount, -, rfl⟩ := entered_of_openVia hname hopen
        rw [(run_eq_ok_iff.mp hopen).2]
        obtain ⟨hanswer, rfl⟩ := run_eq_ok_iff.mp hmount
        exact h.enter path ((hmounted path _).value partition hanswer)

/-- A closing keeps what one reference fewer does not spoil, with the device or without it. -/
theorem all_close (h : vfs.registry.All P) (handle : Handle)
    (hreleased : ∀ record refs device, refs ≤ record.refs → P record →
      P { record with refs := refs, device := device }) :
    ((Vfs.close handle).reached vfs).registry.All P := by
  cases hrecord : vfs.registry.record? handle.blob with
  | none =>
    rw [close_reached_absent hrecord]
    exact h
  | some record =>
    rw [close_reached hrecord]
    split
    · refine Registry.All.unname (h.modifyRecord fun r hr => ?_) record.name
      exact hreleased r 0 none (Nat.zero_le _) (h _ r hr)
    · refine h.modifyRecord fun r hr => ?_
      cases hrecord.symm.trans hr
      exact hreleased record _ record.device (Nat.sub_le _ _) (h _ record hrecord)

end Vfs

/-- A request keeps what its own change of the partition does not spoil. -/
theorem Request.all_perform {vfs : Vfs} {P : BlobRecord → Prop} (h : vfs.registry.All P)
    (request : Request)
    (hturns : ∀ record partition device, request.Turns record.partition partition → P record →
      P { record with device := device, partition := partition }) :
    (request.perform.reached vfs).registry.All P := by
  cases htarget : request.target vfs.registry with
  | none =>
    rw [registry_of_untargeted htarget]
    exact h
  | some id =>
    cases hrecord : vfs.registry.record? id with
    | none =>
      rw [reached_of_absent htarget hrecord]
      exact h
    | some record =>
      obtain ⟨partition, hpartition, hreached⟩ := reached_of_target htarget hrecord
      rw [hreached]
      refine all_settle h fun r hr => ?_
      cases hrecord.symm.trans hr
      exact hturns record partition _ hpartition (h id record hrecord)

/-! ## Sessions -/

namespace Session

variable {s : Session} {P : Partition → Prop}

theorem vfs_after (s : Session) (deed : Deed) :
    (s.after deed).vfs = match deed with
      | .opening path region openDevice => (openVia path region openDevice).reached s.vfs
      | .asking request => request.perform.reached s.vfs
      | .closing number =>
        match s.grants[number]? with
        | some ⟨_, handle, false⟩ => (Vfs.close handle).reached s.vfs
        | _ => s.vfs
      | .meanwhile change => { s.vfs with world := change s.vfs.world } := by
  cases deed with
  | opening path region openDevice =>
    simp only [after, reached]
    cases (openVia path region openDevice).run s.vfs <;> rfl
  | asking request => rfl
  | closing number =>
    rcases hgrant : s.grants[number]? with _ | ⟨name, handle, _ | _⟩ <;> simp only [after, hgrant]
  | meanwhile change => rfl

/-- What holds of every mounted partition and is kept by every request holds of every partition. -/
theorem all_run
    (hmounted : ∀ (name : String) (a : Attached), (Blob.mount name : StepM Attached Partition).Ends a
      (fun partition _ => P partition) (fun _ _ => True))
    (hturns : ∀ request partition next, Request.Turns request partition next → P partition → P next)
    (h : s.vfs.registry.All fun record => P record.partition) (deeds : List Deed) :
    (s.run deeds).vfs.registry.All fun record => P record.partition := by
  induction deeds generalizing s with
  | nil => exact h
  | cons deed rest ih =>
    refine ih ?_
    rw [vfs_after]
    cases deed with
    | opening path region openDevice =>
      exact all_openVia h path region openDevice (fun _ hP => hP) fun name a => hmounted name a
    | asking request =>
      exact request.all_perform h fun record partition _ hchange => hturns request _ partition hchange
    | closing number =>
      dsimp only
      split
      · exact all_close h _ fun _ _ _ _ hP => hP
      · exact h
    | meanwhile change => exact h

end Session

/-! ## Formed partitions -/

/-- The blob has a header block and a journal block, is no longer than a whole one, and the database
fits into it. -/
structure Partition.Formed (partition : Partition) : Prop where
  long : 2 * blockSize ≤ partition.capacity
  standard : partition.capacity ≤ standardCapacity
  fits : partition.databaseSize + blockSize ≤ partition.capacity

theorem Partition.Formed.block_le {partition : Partition} (h : partition.Formed) :
    blockSize ≤ partition.capacity := Nat.le_trans (by decide) h.long

theorem Partition.Formed.capacity_lt {partition : Partition} (h : partition.Formed) :
    partition.capacity < Word.limit := Nat.lt_of_le_of_lt h.standard (by decide)

theorem Blob.ends_mount_formed {δ : Type} [Disk δ] (name : String) (s : δ) :
    (mount name : StepM δ Partition).Ends s (fun partition _ => partition.Formed)
      (fun _ _ => True) :=
  (ends_mount_found name s).mono
    (fun _ _ ⟨hlong, hstandard, hfits, _⟩ => ⟨hlong, hstandard, hfits⟩) fun _ _ _ => trivial

theorem Request.Turns.formed {request : Request} {partition next : Partition}
    (h : request.Turns partition next) (hformed : partition.Formed) : next.Formed := by
  obtain ⟨hcapacity, hfits⟩ := h.fits ⟨rfl, hformed.fits⟩
  exact ⟨hcapacity ▸ hformed.long, hcapacity ▸ hformed.standard, hcapacity ▸ hfits⟩

/-- Every partition in a session is formed. -/
theorem Session.formed_run (world : World) (deeds : List Deed) :
    ((start world).run deeds).vfs.registry.All fun record => record.partition.Formed :=
  all_run (fun name a => Blob.ends_mount_formed name a)
    (fun _ _ _ hturns hformed => hturns.formed hformed) Registry.all_empty deeds

end TwinRegion
