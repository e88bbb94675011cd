/-
TwinRegion.Proofs.Overheard — devices that are listened to.

The file system is written for any kind of device in any world. An
`Overheard` world is the plain one with a list for each device that is given
out in it: a device is `Tagged` with its number, and each call on it is
written down under that number before it is passed on. So what is heard is
what the file system calls, since its own definitions run here too.

Listening changes nothing: without the numbers and the lists, a step goes as
it goes in the plain world (`matches_plain`), and of a medium in memory is
heard what that medium puts on record itself (`matches_agrees`). No
operation closes the device, but for an opening that fails: it makes no
further call after that one (`hears_mount`).
-/
import Mathlib.Logic.Function.Basic
import TwinRegion.Proofs.Refusing
import TwinRegion.Proofs.Serving

namespace TwinRegion

open StepM

/-- A device under the number that it was given out with. -/
structure Tagged where
  number : Nat
  device : Device

/-- A world whose devices are listened to. -/
structure Overheard where
  world : World
  /-- How many devices were given out. -/
  given : Nat
  /-- The calls that the device of each number received, newest first. -/
  heard : Nat → List DiskCall

instance : Around Overheard := ⟨fun change o => { o with world := change o.world }⟩

namespace Overheard

/-- Gives a device out under the next number. -/
def give (openDevice : StepM World Device) : StepM Overheard Tagged := do
  let device ← StepM.focus Overheard.world (fun world o => { o with world := world }) openDevice
  let o ← get
  set { o with given := o.given + 1 }
  return ⟨o.given, device⟩

/-- Writes calls down under a number, if there is one. -/
def tell (number : Option Nat) (calls : List DiskCall) (o : Overheard) : Overheard :=
  match number with
  | some n => { o with heard := Function.update o.heard n (calls ++ o.heard n) }
  | none => o

end Overheard

namespace Attached

variable {α : Type}

/-- The device without its number, in the world without the lists. -/
def plain (a : Attached Tagged Overheard) : Attached := ⟨a.device.map Tagged.device, a.world.world⟩

/-- The number of the device. -/
def number? (a : Attached Tagged Overheard) : Option Nat := a.device.map Tagged.number

/-- The same number and the same lists for another device in another world. -/
def retag (b : Attached) (a : Attached Tagged Overheard) : Attached Tagged Overheard :=
  { device := a.device.bind fun tagged => b.device.map fun device => ⟨tagged.number, device⟩
    world := { a.world with world := b.world } }

/-- The call is written down, if there is a device to receive it. -/
def note (call : DiskCall) (a : Attached Tagged Overheard) : Attached Tagged Overheard :=
  { a with world := a.world.tell a.number? [call] }

/-- Passes a call on. It is heard whether it succeeds or not. -/
def pass (call : DiskCall) (act : StepM Attached α) : StepM (Attached Tagged Overheard) α := do
  modify (note call)
  StepM.focus plain retag act

instance : Disk (Attached Tagged Overheard) where
  ready := StepM.focus plain retag Disk.ready
  length a := Disk.length a.plain
  read offset len := pass (.read offset len) (Disk.read offset len)
  write offset data := pass (.write offset data.size) (Disk.write offset data)
  sync level := pass (.sync level) (Disk.sync level)
  close := pass .close Disk.close

end Attached

/-! ## Numbers and lists -/

namespace Overheard

variable {number : Option Nat} {calls more : List DiskCall} {o : Overheard}

@[simp] theorem tell_nil (number : Option Nat) (o : Overheard) : o.tell number [] = o := by
  cases number <;> simp [tell]

@[simp] theorem world_tell (number : Option Nat) (calls : List DiskCall) (o : Overheard) :
    (o.tell number calls).world = o.world := by
  cases number <;> rfl

@[simp] theorem given_tell (number : Option Nat) (calls : List DiskCall) (o : Overheard) :
    (o.tell number calls).given = o.given := by
  cases number <;> rfl

theorem heard_tell_self (n : Nat) (calls : List DiskCall) (o : Overheard) :
    (o.tell (some n) calls).heard n = calls ++ o.heard n := Function.update_self ..

theorem heard_tell_of_ne {n : Nat} (h : number ≠ some n) (calls : List DiskCall) (o : Overheard) :
    (o.tell number calls).heard n = o.heard n := by
  cases number with
  | none => rfl
  | some m => exact Function.update_of_ne (fun hn => h (congrArg some hn.symm)) _ _

theorem heard_tell_congr {o o' : Overheard} (h : o.heard = o'.heard) (number : Option Nat)
    (calls : List DiskCall) : (o.tell number calls).heard = (o'.tell number calls).heard := by
  cases number <;> simp [tell, h]

theorem heard_tell_tell (number : Option Nat) (calls more : List DiskCall) (o : Overheard) :
    ((o.tell number calls).tell number more).heard = (o.tell number (more ++ calls)).heard := by
  cases number <;> simp [tell]

theorem run_give (openDevice : StepM World Device) (o : Overheard) :
    (give openDevice).run o =
      match openDevice.run o.world with
      | .ok device world => .ok ⟨o.given, device⟩ { o with world := world, given := o.given + 1 }
      | .error e world => .error e { o with world := world } := by
  simp only [give, EStateM.run_bind, run_focus]
  cases openDevice.run o.world <;> rfl

end Overheard

namespace Attached

variable {α : Type} {a : Attached Tagged Overheard} {b : Attached}

theorem isSome_number? (a : Attached Tagged Overheard) : a.number?.isSome = a.device.isSome := by
  simp [number?]

@[simp] theorem plain_note (call : DiskCall) (a : Attached Tagged Overheard) :
    (a.note call).plain = a.plain := by
  simp [note, plain]

theorem plain_retag (h : b.device.isSome = a.plain.device.isSome) : (retag b a).plain = b := by
  obtain ⟨_ | tagged, o⟩ := a <;> obtain ⟨_ | device, world⟩ := b <;> simp_all [retag, plain]

theorem number?_retag (h : b.device.isSome = a.plain.device.isSome) :
    (retag b a).number? = a.number? := by
  obtain ⟨_ | tagged, o⟩ := a <;> obtain ⟨_ | device, world⟩ := b <;>
    simp_all [retag, plain, number?]

theorem reached_pass (call : DiskCall) (act : StepM Attached α) (a : Attached Tagged Overheard) :
    (pass call act).reached a = retag (act.reached a.plain) (a.note call) := by
  have hrun : (pass call act).run a = (StepM.focus plain retag act).run (a.note call) := by
    rw [pass, EStateM.run_bind, EStateM.run_modify]
  rw [reached_of_run_eq hrun, reached_focus, plain_note]

/-! ## Nobody listening -/

theorem alike_pass (call : DiskCall) (onRam : StepM RamDisk α) (onFile : StepM FileDisk α)
    (h : a.plain = b) :
    Alike (fun a b => Attached.plain a = b) (pass call (Attached.call onRam onFile)) a
      (Attached.call onRam onFile) b := by
  subst h
  have hfocus : Alike (fun a b => Attached.plain a = b)
      (StepM.focus plain retag (Attached.call onRam onFile)) (a.note call)
      (Attached.call onRam onFile) (a.note call).plain :=
    .of_focus ((ends_call_isSome onRam onFile _).mono (fun _ _ h => plain_retag h)
      fun _ _ h => plain_retag h)
  rw [plain_note] at hfocus
  exact hfocus.of_run_eq (by rw [pass, EStateM.run_bind, EStateM.run_modify]) rfl

/-- Listening changes nothing. -/
theorem matches_plain : Disk.Matches fun a b => Attached.plain a = b where
  ready := by
    rintro a _ rfl
    have hready : (Disk.ready : StepM Attached Unit).Ends a.plain (fun _ b => b = a.plain)
        (fun _ b => b = a.plain) := .get_bind (.ite (fun _ => .refuse rfl) fun _ => .pure rfl)
    have hsame : ∀ b, b = a.plain → (retag b a).plain = b := fun _ h => plain_retag (by rw [h])
    exact .of_focus (hready.mono (fun _ b h => hsame b h) fun _ b h => hsame b h)
  length h := congrArg Disk.length h
  read h _ _ := alike_pass _ _ _ h
  write h _ _ := alike_pass _ _ _ h
  sync h _ := alike_pass _ _ _ h

theorem alike_close_plain (h : a.plain = b) :
    Alike (fun a b => Attached.plain a = b) (Disk.close : StepM (Attached Tagged Overheard) Unit) a
      Disk.close b :=
  alike_pass _ _ _ h

/-! ## Hearing -/

/-- The device is still of the same number, nothing was given out, and what was heard since is
on this device and did not close it. -/
structure Hears (start a : Attached Tagged Overheard) : Prop where
  number_eq : a.number? = start.number?
  given_eq : a.world.given = start.world.given
  since : ∃ calls, a.world.heard = (start.world.tell start.number? calls).heard ∧ .close ∉ calls

theorem Hears.refl (a : Attached Tagged Overheard) : Hears a a :=
  ⟨rfl, rfl, [], by rw [Overheard.tell_nil], List.not_mem_nil⟩

variable {start : Attached Tagged Overheard}

theorem number?_note (call : DiskCall) (a : Attached Tagged Overheard) :
    (a.note call).number? = a.number? := rfl

theorem isSome_reached_call (onRam : StepM RamDisk α) (onFile : StepM FileDisk α) (b : Attached) :
    ((Attached.call onRam onFile).reached b).device.isSome = b.device.isSome :=
  (ends_call_isSome onRam onFile b).reached (P := fun b' : Attached => b'.device.isSome = b.device.isSome)

theorem number?_pass (call : DiskCall) (onRam : StepM RamDisk α) (onFile : StepM FileDisk α)
    (a : Attached Tagged Overheard) :
    ((pass call (Attached.call onRam onFile)).reached a).number? = a.number? := by
  rw [reached_pass, number?_retag, number?_note]
  rw [isSome_reached_call, plain_note]

theorem isSome_pass (call : DiskCall) (onRam : StepM RamDisk α) (onFile : StepM FileDisk α)
    (a : Attached Tagged Overheard) :
    ((pass call (Attached.call onRam onFile)).reached a).device.isSome = a.device.isSome := by
  rw [← isSome_number?, number?_pass, isSome_number?]

/-- The lists after a call. -/
theorem world_pass (call : DiskCall) (act : StepM Attached α) (a : Attached Tagged Overheard) :
    ((pass call act).reached a).world.heard = (a.world.tell a.number? [call]).heard ∧
      ((pass call act).reached a).world.given = a.world.given := by
  rw [reached_pass]
  exact ⟨rfl, Overheard.given_tell ..⟩

theorem preserves_pass {call : DiskCall} (hcall : call ≠ .close) (onRam : StepM RamDisk α)
    (onFile : StepM FileDisk α) :
    Preserves (Hears start) (pass call (Attached.call onRam onFile)) := by
  rintro a ⟨hnumber, hgiven, calls, hheard, hclose⟩
  obtain ⟨htold, hsame⟩ := world_pass call (Attached.call onRam onFile) a
  refine ⟨(number?_pass ..).trans hnumber, hsame.trans hgiven, call :: calls, ?_, ?_⟩
  · rw [htold, Overheard.heard_tell_congr hheard, hnumber, Overheard.heard_tell_tell]
    rfl
  · rw [List.mem_cons, not_or]
    exact ⟨hcall.symm, hclose⟩

theorem reached_ready (a : Attached Tagged Overheard) :
    (Disk.ready : StepM (Attached Tagged Overheard) Unit).reached a = a := by
  have hready : (Disk.ready : StepM Attached Unit).reached a.plain = a.plain :=
    Ends.reached (P := (· = a.plain))
      (.get_bind (.ite (fun _ => .refuse rfl) fun _ => .pure rfl))
  have hfocus := reached_focus plain retag (Disk.ready : StepM Attached Unit) a
  rw [hready] at hfocus
  refine hfocus.trans ?_
  obtain ⟨_ | tagged, o⟩ := a <;> rfl

theorem keeps_hears (start : Attached Tagged Overheard) :
    Disk.Keeps (Hears start) fun _ _ => True where
  ready a h := by rwa [reached_ready]
  read _ _ := preserves_pass (by simp) _ _
  write _ _ _ := preserves_pass (by simp) _ _
  sync _ := preserves_pass (by simp) _ _

instance : Lasting Tagged Overheard where
  keeps held :=
    { ready := fun a hheld => by rwa [reached_ready]
      read := fun _ _ a hheld => (isSome_pass _ _ _ a).trans hheld
      write := fun _ _ _ a hheld => (isSome_pass _ _ _ a).trans hheld
      sync := fun _ a hheld => (isSome_pass _ _ _ a).trans hheld }
  close a hnone := by
    obtain ⟨_ | tagged, o⟩ := a
    · have hclose : (Disk.close : StepM Attached Unit).reached ⟨none, o.world⟩ = ⟨none, o.world⟩ :=
        Lasting.close _ rfl
      refine (reached_pass .close Disk.close _).trans ?_
      rw [show plain ⟨none, o⟩ = ⟨none, o.world⟩ from rfl, hclose]
      rfl
    · cases hnone

end Attached

/-! ## What a medium keeps itself -/

namespace RamDisk

/-- However it ends, the step puts this one call on record. -/
def Records {α : Type} (call : DiskCall) (step : StepM RamDisk α) : Prop :=
  ∀ disk, step.Ends disk (fun _ after => after.calls = call :: disk.calls)
    (fun _ after => after.calls = call :: disk.calls)

theorem records_read (offset len : Nat) : Records (.read offset len) (read offset len) := by
  intro disk
  refine .modify_bind (.get_bind (.ite (fun _ => .refuse_bind rfl) fun _ => ?_))
  refine .check_bind (fun _ _ => rfl) fun stop _ => ?_
  exact .ite (fun _ => .refuse_bind rfl) fun _ => .pure rfl

theorem records_write (offset : Nat) (data : Bytes) :
    Records (.write offset data.size) (write offset data) := by
  intro disk
  have hspend : ∀ disk : RamDisk, spendWrite.Ends disk (fun _ after => after.calls = disk.calls)
      (fun _ after => after.calls = disk.calls) := by
    intro disk
    refine .get_bind ?_
    split
    · exact .pure rfl
    · exact .refuse rfl
    · exact .set rfl
  refine .modify_bind ((hspend _).bind (fun _ _ h => h) fun _ spent hspent => .get_bind ?_)
  refine .ite (fun _ => .refuse_bind hspent) fun _ => ?_
  refine .check_bind (fun _ _ => hspent) fun stop _ => ?_
  have hstore : (liftM (guardLength stop) >>= fun _ =>
      set { spent with image := spent.image.write offset data } : StepM RamDisk Unit).Ends spent
        (fun _ after => after.calls = .write offset data.size :: disk.calls)
        (fun _ after => after.calls = .write offset data.size :: disk.calls) :=
    .check_bind (fun _ _ => hspent) fun _ _ => .set hspent
  split
  · exact hstore
  · exact .ite (fun _ => .refuse_bind hspent) fun _ => hstore

theorem records_sync (level : SyncLevel) : Records (.sync level) (sync level) := by
  intro disk
  refine .modify_bind (.get_bind ?_)
  exact .ite (fun _ => .refuse_bind rfl) fun _ => .set rfl

theorem records_close : Records .close close := by
  intro disk
  refine .modify_bind (.get_bind ?_)
  exact .ite (fun _ => .refuse rfl) fun _ => .pure rfl

end RamDisk

namespace Attached

variable {name : String}

/-- The device is this medium, and what was heard of it is what the medium has on record. -/
structure Agrees (name : String) (number : Nat) (a : Attached Tagged Overheard) (disk : RamDisk) :
    Prop where
  on : a.plain.On name disk
  number_eq : a.number? = some number
  heard_eq : a.world.heard number = disk.calls

variable {number : Nat}

theorem alike_pass_ram {α : Type} {call : DiskCall} {onRam : StepM RamDisk α}
    (hcall : RamDisk.Records call onRam) (onFile : StepM FileDisk α)
    {a : Attached Tagged Overheard} {disk : RamDisk} (h : Agrees name number a disk) :
    Alike (Agrees name number) (pass call (Attached.call onRam onFile)) a onRam disk := by
  have hnumber := (number?_pass call onRam onFile a).trans h.number_eq
  have hheard : ((pass call (Attached.call onRam onFile)).reached a).world.heard number =
      (onRam.reached disk).calls := by
    have hcalls : (onRam.reached disk).calls = call :: disk.calls :=
      Ends.reached (P := fun after : RamDisk => after.calls = call :: disk.calls) (hcall disk)
    rw [(world_pass call _ a).1, h.number_eq, Overheard.heard_tell_self, h.heard_eq, hcalls]
    rfl
  cases alike_pass call onRam onFile (rfl : a.plain = a.plain) with
  | @ok value a' b hfar hnear hplain =>
    cases Attached.alike_call onRam onFile h.on with
    | @ok _ b' disk' hcalled hdisk hon =>
      obtain ⟨rfl, rfl⟩ := EStateM.Result.ok.inj (hnear.symm.trans hcalled)
      rw [(run_eq_ok_iff.mp hfar).2, (run_eq_ok_iff.mp hdisk).2] at hheard
      rw [(run_eq_ok_iff.mp hfar).2] at hnumber
      exact .ok hfar hdisk ⟨hplain ▸ hon, hnumber, hheard⟩
    | error hcalled _ _ => cases hnear.symm.trans hcalled
  | @error e a' b hfar hnear hplain =>
    cases Attached.alike_call onRam onFile h.on with
    | ok hcalled _ _ => cases hnear.symm.trans hcalled
    | @error _ b' disk' hcalled hdisk hon =>
      obtain ⟨rfl, rfl⟩ := EStateM.Result.error.inj (hnear.symm.trans hcalled)
      rw [(run_eq_error_iff.mp hfar).2, (run_eq_error_iff.mp hdisk).2] at hheard
      rw [(run_eq_error_iff.mp hfar).2] at hnumber
      exact .error hfar hdisk ⟨hplain ▸ hon, hnumber, hheard⟩

/-- What is heard of a medium in memory is what that medium records. -/
theorem matches_agrees (name : String) (number : Nat) : Disk.Matches (Agrees name number) where
  ready := by
    intro a disk h
    refine .ok ?_ rfl h
    have hready := matches_plain.ready (rfl : a.plain = a.plain)
    have hplain : (Disk.ready : StepM Attached Unit).run a.plain = .ok () a.plain := by
      simp [Disk.ready, h.on.device_eq]
    cases hready with
    | @ok value a' b hfar hnear _ =>
      rw [hfar, ← (run_eq_ok_iff.mp hfar).2, reached_ready]
    | error _ hnear _ => cases hnear.symm.trans hplain
  length h := (Attached.matches_on name).length h.on
  read h offset len := alike_pass_ram (RamDisk.records_read offset len) _ h
  write h offset data := alike_pass_ram (RamDisk.records_write offset data) _ h
  sync h level := alike_pass_ram (RamDisk.records_sync level) _ h

theorem alike_close_ram {a : Attached Tagged Overheard} {disk : RamDisk}
    (h : Agrees name number a disk) :
    Alike (Agrees name number) (Disk.close : StepM (Attached Tagged Overheard) Unit) a Disk.close
      disk :=
  alike_pass_ram RamDisk.records_close _ h

end Attached

/-! ## Opening and closing -/

/-- The device was closed once, and that was the last call on it. -/
def ClosedLast (calls : List DiskCall) : Prop := ∃ before, calls = .close :: before ∧ .close ∉ before

/-- Where reading the partition is refused, mounting fails right after it closed the disk. -/
theorem Blob.run_mount_of_refused {δ : Type} [Disk δ] {name : String} {s s' : δ} {error : Error}
    (h : (readPartition name : StepM δ Partition).run s = .error (.refused error) s') :
    ∃ e, (mount name : StepM δ Partition).run s =
      .error e ((Disk.close : StepM δ Unit).reached s') := by
  have hread : (attempt (readPartition name : StepM δ Partition)).run s = .ok (.error error) s' := by
    rw [run_attempt, h]
  rw [mount, run_bind_of_ok hread]
  dsimp only
  cases hclose : (Disk.close : StepM δ Unit).run s' with
  | ok value last =>
    rw [(run_eq_ok_iff.mp hclose).2]
    exact ⟨.refused error, by simp [discard, LawfulFunctor.map_const, hclose]⟩
  | error e last =>
    rw [(run_eq_error_iff.mp hclose).2]
    cases e with
    | refused closing => exact ⟨.refused error, by simp [discard, LawfulFunctor.map_const, hclose]⟩
    | fault fault => exact ⟨.fault fault, by simp [discard, LawfulFunctor.map_const, hclose]⟩

namespace Attached

/-- What closing a device leaves in the lists. -/
theorem heard_close (a : Attached Tagged Overheard) :
    ((Disk.close : StepM (Attached Tagged Overheard) Unit).reached a).world.heard =
        (a.world.tell a.number? [.close]).heard ∧
      ((Disk.close : StepM (Attached Tagged Overheard) Unit).reached a).world.given =
        a.world.given := world_pass .close Disk.close a

/-- A device on which a blob was mounted is not closed; one on which none was, is, and the call
that closes it is the last. -/
theorem hears_mount (name : String) (a : Attached Tagged Overheard) :
    (Blob.mount name : StepM (Attached Tagged Overheard) Partition).Ends a
      (fun _ a' => Hears a a')
      (fun _ a' => a'.world.given = a.world.given ∧ ∃ calls,
        a'.world.heard = (a.world.tell a.number? (.close :: calls)).heard ∧ .close ∉ calls) := by
  have hread := Blob.preserves_readPartition (keeps_hears a) name a (.refl a)
  cases hrun : (Blob.readPartition name : StepM (Attached Tagged Overheard) Partition).run a with
  | ok partition a' =>
    rw [(run_eq_ok_iff.mp hrun).2] at hread
    have hmount : (Blob.mount name : StepM (Attached Tagged Overheard) Partition).run a =
        .ok partition a' := by simp [Blob.mount, hrun]
    exact .of_run_ok hmount hread
  | error e a' =>
    rw [(run_eq_error_iff.mp hrun).2] at hread
    have hplain := Blob.alike_readPartition matches_plain name (rfl : a.plain = a.plain)
    obtain ⟨error, rfl⟩ := (Blob.ends_readPartition_refusing name a.plain).failure e
      (hplain.answer_eq.symm.trans (run_eq_error_iff.mp hrun).1)
    obtain ⟨e, hmount⟩ := Blob.run_mount_of_refused hrun
    obtain ⟨hnumber, hgiven, calls, hheard, hclose⟩ := hread
    obtain ⟨htold, hsame⟩ := heard_close a'
    refine .of_run_error hmount ⟨hsame.trans hgiven, calls, ?_, hclose⟩
    rw [htold, Overheard.heard_tell_congr hheard, hnumber, Overheard.heard_tell_tell]
    rfl

end Attached

end TwinRegion
