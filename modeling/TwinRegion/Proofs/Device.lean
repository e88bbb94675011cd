/-
TwinRegion.Proofs.Device — a blob's operations through a device.

In the world a medium is reached through a device. A device that stands
for a medium passes each call on to it (`alike_call`), so the two match
(`matches_on`), and every operation of a blob on the device is alike to
the same operation on the medium itself.
-/
import TwinRegion.Proofs.Uniform
import TwinRegion.World

namespace TwinRegion

open StepM

/-- The device is the medium of this name, and that medium is `disk`. -/
structure Attached.On (name : String) (a : Attached) (disk : RamDisk) : Prop where
  device_eq : a.device = some (.ram name)
  medium_eq : a.world.medium name = disk

namespace Attached

variable {name : String} {a : Attached} {disk : RamDisk}

/-! ## Calls -/

theorem alike_call {α : Type} (onRam : StepM RamDisk α) (onFile : StepM FileDisk α)
    (h : On name a disk) : Alike (On name) (call onRam onFile) a onRam disk := by
  obtain ⟨hdevice, rfl⟩ := h
  have hrun : (call onRam onFile).run a = (focusRam name onRam).run a := by
    simp only [call, EStateM.run_bind, EStateM.run_get, hdevice]
  have hput : ∀ next, On name { a with world := a.world.setMedium name next } next :=
    fun next => ⟨hdevice, by rw [World.medium_setMedium, if_pos rfl]⟩
  cases hnear : onRam.run (a.world.medium name) with
  | ok value next => exact .ok (by rw [hrun, focusRam, run_focus, hnear]) hnear (hput next)
  | error e next => exact .error (by rw [hrun, focusRam, run_focus, hnear]) hnear (hput next)

theorem matches_on (name : String) : Disk.Matches (On name) where
  ready h := .ok (by simp [Disk.ready, h.device_eq]) rfl h
  length h := by
    obtain ⟨hdevice, rfl⟩ := h
    simp only [Disk.length, hdevice]
  read h _ _ := alike_call _ _ h
  write h _ _ := alike_call _ _ h
  sync h _ := alike_call _ _ h

theorem alike_close (h : On name a disk) :
    Alike (On name) (Disk.close : StepM Attached Unit) a Disk.close disk :=
  alike_call _ _ h

/-- What holds of a call on every medium and on every file holds of it through a device, and
the call neither takes the device away nor brings one. -/
theorem ends_call {α : Type} {onRam : StepM RamDisk α} {onFile : StepM FileDisk α}
    {onValue : α → Prop} {onFailure : Failure → Prop}
    (hram : ∀ disk, onRam.Ends disk (fun value _ => onValue value) (fun e _ => onFailure e))
    (hfile : ∀ disk, onFile.Ends disk (fun value _ => onValue value) (fun e _ => onFailure e))
    (hnone : onFailure (.refused .detached)) :
    (call onRam onFile).Ends a
      (fun value a' => a'.device.isSome = a.device.isSome ∧ onValue value)
      (fun e a' => a'.device.isSome = a.device.isSome ∧ onFailure e) := by
  refine .get_bind ?_
  split
  · exact .refuse ⟨rfl, hnone⟩
  · rename_i name hdevice
    have hmedium : (focusRam name onRam).Ends a _ _ := Ends.focus (hram (a.world.medium name))
    refine hmedium.mono ?_ ?_
    · rintro value _ ⟨disk, rfl, hvalue⟩
      exact ⟨rfl, hvalue⟩
    · rintro e _ ⟨disk, rfl, he⟩
      exact ⟨rfl, he⟩
  · rename_i handle hdevice
    have hbody : (focusFile handle onFile).Ends a _ _ := Ends.focus (hfile (a.world.fileDisk handle))
    refine hbody.mono ?_ ?_
    · rintro value _ ⟨disk, rfl, hvalue⟩
      exact ⟨by rw [hdevice]; rfl, hvalue⟩
    · rintro e _ ⟨disk, rfl, he⟩
      exact ⟨by rw [hdevice]; rfl, he⟩

theorem ends_call_isSome {α : Type} (onRam : StepM RamDisk α) (onFile : StepM FileDisk α)
    (a : Attached) :
    (call onRam onFile).Ends a (fun _ a' => a'.device.isSome = a.device.isSome)
      (fun _ a' => a'.device.isSome = a.device.isSome) :=
  (ends_call (fun _ => .any) (fun _ => .any) trivial).mono (fun _ _ h => h.1) fun _ _ h => h.1

/-! ## Devices that last -/

/-- The calls of a disk neither take its device away nor bring one, and without a device there is
nothing to close. -/
class Lasting (D W : Type) [Disk (Attached D W)] : Prop where
  keeps : ∀ held, Disk.Keeps (fun a : Attached D W => a.device.isSome = held) fun _ _ => True
  close : ∀ a : Attached D W, a.device = none → (Disk.close : StepM (Attached D W) Unit).reached a = a

instance : Lasting Device World where
  keeps held :=
    { ready := by
        intro a hheld
        have hready : (Disk.ready : StepM Attached Unit).Ends a (fun _ a' => a' = a) (fun _ a' => a' = a) :=
          .get_bind (.ite (fun _ => .refuse rfl) fun _ => .pure rfl)
        rwa [hready.reached (P := (· = a))]
      read := fun _ _ a hheld => ((ends_call_isSome _ _ a).reached).trans hheld
      write := fun _ _ _ a hheld => ((ends_call_isSome _ _ a).reached).trans hheld
      sync := fun _ a hheld => ((ends_call_isSome _ _ a).reached).trans hheld }
  close a hnone := by
    have hrun : (Disk.close : StepM Attached Unit).run a = .error (.refused .detached) a := by
      simp [Disk.close, call, hnone]
    exact (run_eq_error_iff.mp hrun).2

end Attached

/-- A blob is mounted on a device only if there is one, and it stays. -/
theorem Blob.ends_mount_lasting {D W : Type} [Disk (Attached D W)] [Attached.Lasting D W]
    (name : String) (a : Attached D W) :
    (mount name : StepM (Attached D W) Partition).Ends a
      (fun _ a' => a'.device.isSome = a.device.isSome) (fun _ _ => True) := by
  have hread : (readPartition name : StepM (Attached D W) Partition).Ends a
      (fun _ a' => a'.device.isSome = a.device.isSome)
      (fun _ a' => a'.device.isSome = a.device.isSome) :=
    .of_reached (P := fun a' : Attached D W => a'.device.isSome = a.device.isSome)
      (preserves_readPartition (Attached.Lasting.keeps _) name a rfl)
  refine hread.attempt.bind (fun _ _ _ => trivial) fun result _ h => ?_
  cases result with
  | ok partition => exact .pure h
  | error error => exact Ends.any.bind (fun _ _ h => h) fun _ _ _ => .refuse trivial

end TwinRegion
