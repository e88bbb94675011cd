/-
TwinRegion.Proofs.Uniform — a blob's operations ask nothing of the disk but its calls.

`Disk.Matches R` says of two kinds of disk that each call of the one is
alike to the same call of the other, from states that `R` relates. The
operations of a blob are built from calls and checks, so they are alike as
well, whatever the two disks are. What follows for a medium behind a
device, and for a device that is listened to, are instances.
-/
import TwinRegion.Proofs.Simulation
import TwinRegion.Blob.Transfer

namespace TwinRegion

open StepM

variable {δ ε : Type} [Disk δ] [Disk ε] {R : δ → ε → Prop} {s : δ} {t : ε}

/-- Every call but the closing one goes alike on two disks, from related states. -/
structure Disk.Matches (R : δ → ε → Prop) : Prop where
  ready : ∀ {s t}, R s t → Alike R (Disk.ready : StepM δ Unit) s Disk.ready t
  length : ∀ {s t}, R s t → Disk.length s = Disk.length t
  read : ∀ {s t}, R s t → ∀ offset len,
    Alike R (Disk.read offset len : StepM δ Bytes) s (Disk.read offset len) t
  write : ∀ {s t}, R s t → ∀ offset data,
    Alike R (Disk.write offset data : StepM δ Unit) s (Disk.write offset data) t
  sync : ∀ {s t}, R s t → ∀ level,
    Alike R (Disk.sync level : StepM δ Unit) s (Disk.sync level) t

/-- The calls that a writing operation makes go alike on two disks, from related states. -/
structure Disk.WritesMatch (R : δ → ε → Prop) : Prop where
  ready : ∀ {s t}, R s t → Alike R (Disk.ready : StepM δ Unit) s Disk.ready t
  write : ∀ {s t}, R s t → ∀ offset data,
    Alike R (Disk.write offset data : StepM δ Unit) s (Disk.write offset data) t
  sync : ∀ {s t}, R s t → ∀ level,
    Alike R (Disk.sync level : StepM δ Unit) s (Disk.sync level) t

theorem Disk.Matches.writes (h : Disk.Matches R) : Disk.WritesMatch R := ⟨h.ready, h.write, h.sync⟩

/-- The calls of a disk preserve a property of it; of the writes, those that are admitted do. -/
structure Disk.Keeps {δ : Type} [Disk δ] (P : δ → Prop) (admitted : Nat → Nat → Prop) : Prop where
  ready : Preserves P (Disk.ready : StepM δ Unit)
  read : ∀ offset len, Preserves P (Disk.read offset len : StepM δ Bytes)
  write : ∀ offset data, admitted offset data.size →
    Preserves P (Disk.write offset data : StepM δ Unit)
  sync : ∀ level, Preserves P (Disk.sync level : StepM δ Unit)

theorem Disk.Keeps.mono {δ : Type} [Disk δ] {P : δ → Prop} {admitted fewer : Nat → Nat → Prop}
    (h : Disk.Keeps P admitted) (hfewer : ∀ offset len, fewer offset len → admitted offset len) :
    Disk.Keeps P fewer :=
  ⟨h.ready, h.read, fun offset data hdata => h.write offset data (hfewer _ _ hdata), h.sync⟩

/-- A step goes as itself. -/
theorem StepM.Preserves.alike {σ α : Type} {P : σ → Prop} {step : StepM σ α} (h : Preserves P step)
    {s t : σ} (hst : s = t ∧ P s) : Alike (fun s t => s = t ∧ P s) step s step t := by
  obtain ⟨rfl, hs⟩ := hst
  cases hrun : step.run s with
  | ok a s' => exact .ok hrun hrun ⟨rfl, (run_eq_ok_iff.mp hrun).2 ▸ h s hs⟩
  | error e s' => exact .error hrun hrun ⟨rfl, (run_eq_error_iff.mp hrun).2 ▸ h s hs⟩

/-- What every call keeps wherever it writes is a way for a disk to match itself. -/
theorem Disk.Keeps.matches_self {P : δ → Prop} (h : Disk.Keeps P fun _ _ => True) :
    Disk.Matches fun s t : δ => s = t ∧ P s where
  ready hst := h.ready.alike hst
  length hst := congrArg Disk.length hst.1
  read hst offset len := (h.read offset len).alike hst
  write hst offset data := (h.write offset data trivial).alike hst
  sync hst level := (h.sync level).alike hst

namespace Blob

/-! ## Transfers -/

theorem alike_readRuns (hR : Disk.Matches R) (len : Nat) (buffer : Bytes) (runs : List Extent)
    (h : R s t) : Alike R (readRuns len buffer runs) s (readRuns len buffer runs) t := by
  induction runs generalizing buffer s t with
  | nil => exact .pure h
  | cons run rest ih =>
    refine .check_bind h fun stop => ?_
    refine .ite (fun _ => ?_) fun _ => ?_
    · exact .throw h
    · exact (hR.read h _ _).bind fun bytes s t h => ih _ h

theorem alike_writeRuns (hR : Disk.WritesMatch R) (partition : Partition) (data : Bytes)
    (runs : List Extent) (h : R s t) :
    Alike R (writeRuns partition data runs) s (writeRuns partition data runs) t := by
  induction runs generalizing s t with
  | nil => exact .pure h
  | cons run rest ih =>
    refine .check_bind h fun _ => .check_bind h fun bytes => ?_
    exact (hR.write h _ _).bind fun _ s t h => ih h

theorem alike_read (hR : Disk.Matches R) (partition : Partition) (region : Region)
    (offset len : Nat) (h : R s t) :
    Alike R (read partition region offset len) s (read partition region offset len) t := by
  refine .check_bind h fun _ => (hR.ready h).bind fun _ s t h => ?_
  cases region with
  | database => exact .check_bind h fun place => hR.read h _ _
  | journal =>
    refine (alike_readRuns hR len #[] _ h).bind fun bytes s t h => ?_
    exact .check_bind h fun _ => .pure h

theorem alike_write (hR : Disk.WritesMatch R) (partition : Partition) (region : Region) (offset : Nat)
    (data : Bytes) (h : R s t) :
    Alike R (write partition region offset data) s (write partition region offset data) t := by
  refine .check_bind h fun stop => ?_
  cases region with
  | database =>
    refine .check_bind h fun _ => (hR.ready h).bind fun _ s t h => ?_
    refine .check_bind h fun place => (hR.write h _ _).bind fun _ s t h => ?_
    exact .pure h
  | journal =>
    refine (hR.ready h).bind fun _ s t h => ?_
    refine (alike_writeRuns hR partition data _ h).bind fun _ s t h => ?_
    exact .check_bind h fun _ => .pure h

theorem alike_sync (hR : Disk.WritesMatch R) (partition : Partition) (region : Region) (flags : Int32)
    (h : R s t) :
    Alike R (sync partition region flags) s (sync partition region flags) t := by
  cases region with
  | database => exact (hR.write h _ _).bind fun _ s t h => hR.sync h _
  | journal => exact hR.sync h _

/-! ## Opening and erasing -/

theorem alike_eraseJournal (hR : Disk.WritesMatch R) (partition : Partition) (h : R s t) :
    Alike R (eraseJournal partition) s (eraseJournal partition) t := by
  refine (hR.ready h).bind fun _ s t h => ?_
  refine .check_bind h fun head => (hR.write h _ _).bind fun _ s t h => ?_
  refine .check_bind h fun mark => (hR.write h _ _).bind fun _ s t h => ?_
  exact .pure h

theorem alike_readPartition (hR : Disk.Matches R) (name : String) (h : R s t) :
    Alike R (readPartition name) s (readPartition name) t := by
  refine .get_bind ?_
  rw [hR.length h]
  refine .ite (fun _ => ?_) fun _ => ?_
  · exact (hR.write h _ _).bind fun _ s t h => .pure h
  · refine .check_bind h fun capacity => (hR.read h _ _).bind fun word s t h => ?_
    refine .check_bind h fun mark => (hR.read h _ _).bind fun mark s t h => ?_
    exact .check h

theorem preserves_readPartition {P : δ → Prop} (hP : Disk.Keeps P fun _ _ => True) (name : String) :
    Preserves P (readPartition name : StepM δ Partition) :=
  fun _ hs => (alike_readPartition hP.matches_self name ⟨rfl, hs⟩).reached_rel.2

theorem alike_mount (hR : Disk.Matches R)
    (hclose : ∀ {s t}, R s t → Alike R (Disk.close : StepM δ Unit) s Disk.close t) (name : String)
    (h : R s t) : Alike R (mount name) s (mount name) t := by
  refine (alike_readPartition hR name h).attempt.bind fun result s t h => ?_
  cases result with
  | ok partition => exact .pure h
  | error error =>
    exact (hclose h).attempt.map.bind fun _ s t h => .check h

end Blob

end TwinRegion
