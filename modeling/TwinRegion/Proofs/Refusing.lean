/-
TwinRegion.Proofs.Refusing — an opening does not fault.

A fault is an end that nothing answers to, so a blob whose opening could
fault would leave a device that nobody closes. It cannot: the transfers of
an opening have small offsets and bring as many bytes as were asked for, on
a medium and in a file, and the sums on what was read stay far below 64
bits. What is left is a value or a refusal (`ends_readPartition_refusing`).
-/
import Mathlib.Algebra.Group.Nat.Defs
import TwinRegion.Proofs.Device
import TwinRegion.Proofs.Mounting

namespace TwinRegion

open StepM

/-- The failure is a refusal, not a fault. -/
def Failure.IsRefusal (e : Failure) : Prop := ∃ error, e = .refused error

theorem isRefusal_refused (error : Error) : (Failure.refused error).IsRefusal := ⟨error, rfl⟩

namespace RamDisk

theorem ends_read_sized (disk : RamDisk) {offset len : Nat} (hlim : offset + len < Word.limit) :
    (read offset len).Ends disk (fun bytes _ => bytes.size = len) (fun e _ => e.IsRefusal) := by
  refine .modify_bind (.get_bind (.ite (fun _ => .refuse_bind (isRefusal_refused _)) fun _ => ?_))
  refine .check_ok_bind (Word.add_eq_ok_iff.mpr ⟨hlim, rfl⟩) ?_
  exact .ite (fun _ => .refuse_bind (isRefusal_refused _)) fun _ => .pure (by simp)

theorem ends_spendWrite_refusing (disk : RamDisk) :
    spendWrite.Ends disk (fun _ _ => True) (fun e _ => e.IsRefusal) := by
  refine .get_bind ?_
  split
  · exact .pure trivial
  · exact .refuse (isRefusal_refused _)
  · exact .set trivial

theorem ends_write_refusing (disk : RamDisk) {offset : Nat} {data : Bytes}
    (hlen : offset + data.size ≤ maxLength) :
    (write offset data).Ends disk (fun _ _ => True) (fun e _ => e.IsRefusal) := by
  obtain ⟨hadd, hguard⟩ := add_of_le_maxLength hlen
  refine .modify_bind ((ends_spendWrite_refusing _).bind (fun _ _ h => h) fun _ spent _ => ?_)
  refine .get_bind (.ite (fun _ => .refuse_bind (isRefusal_refused _)) fun _ => ?_)
  refine .check_ok_bind hadd ?_
  split
  · exact .check_ok_bind hguard (.set trivial)
  · refine .ite (fun _ => .refuse_bind (isRefusal_refused _)) fun _ => ?_
    exact .check_ok_bind hguard (.set trivial)

end RamDisk

namespace FileDisk

variable {onFailure : Failure → Prop}

theorem ends_moveTo (disk : FileDisk) (offset : Nat)
    (hio : ∀ cause, onFailure (.refused (.io cause))) :
    (moveTo offset).Ends disk (fun _ _ => True) (fun e _ => onFailure e) := by
  refine .get_bind (.ite (fun _ => .get_bind ?_) fun _ => .pure trivial)
  split
  · exact .ite (fun _ => .refuse_bind (hio _)) fun _ => .modifies trivial
  · exact .modifies trivial
  · exact .modifies trivial

/-- What holds of a transfer's failures still does after the move to its offset. -/
theorem ends_transfer {α : Type} (disk : FileDisk) (offset : Nat) {act : StepM FileDisk α}
    {onValue : α → Prop} (hio : ∀ cause, onFailure (.refused (.io cause)))
    (hact : ∀ disk, act.Ends disk (fun a _ => onValue a) (fun e _ => onFailure e)) :
    (transfer offset act).Ends disk (fun a _ => onValue a) (fun e _ => onFailure e) := by
  have hmoved : (do moveTo offset; act : StepM FileDisk α).Ends disk (fun a _ => onValue a)
      (fun e _ => onFailure e) :=
    (ends_moveTo disk offset hio).bind (fun _ _ h => h) fun _ disk _ => hact disk
  refine hmoved.attempt.bind (fun _ _ h => h) fun result disk h => ?_
  cases result with
  | ok a => exact .pure h
  | error error => exact .modify_bind (.refuse h)

theorem ends_readExact (disk : FileDisk) (len : Nat) :
    (readExact len).Ends disk (fun bytes _ => bytes.size = len) (fun e _ => e.IsRefusal) := by
  refine .get_bind (.ite (fun hnone => .pure hnone.symm) fun _ => ?_)
  split
  · refine .ite (fun _ => .refuse_bind (isRefusal_refused _)) fun _ => ?_
    refine .ite (fun _ => .modify_bind (.refuse_bind (isRefusal_refused _))) fun _ => ?_
    exact .modify_bind (.pure (by simp))
  · exact .refuse (isRefusal_refused _)
  · exact .modify_bind (.pure (by simp))

theorem ends_read_sized (disk : FileDisk) {offset len : Nat} (hlim : offset + len < Word.limit) :
    (read offset len).Ends disk (fun bytes _ => bytes.size = len) (fun e _ => e.IsRefusal) := by
  refine (ends_transfer disk offset (fun _ => isRefusal_refused _)
    fun disk => ends_readExact disk len).bind (fun _ _ h => h) ?_
  intro bytes disk hsize
  exact .check_ok_bind (Word.add_eq_ok_iff.mpr ⟨hlim, rfl⟩) (.modify_bind (.pure hsize))

theorem ends_writeAll (disk : FileDisk) (data : Bytes)
    (hio : ∀ cause, onFailure (.refused (.io cause))) :
    (writeAll data).Ends disk (fun _ _ => True) (fun e _ => onFailure e) := by
  refine .get_bind (.ite (fun _ => .pure trivial) fun _ => ?_)
  split
  · refine .ite (fun _ => .refuse_bind (hio _)) fun _ => ?_
    exact .of_run_ok rfl trivial
  · exact .modifies trivial
  · exact .refuse (hio _)

/-- A write fails with what the file says, or on the sum that is its end. -/
theorem ends_write (disk : FileDisk) (offset : Nat) (data : Bytes)
    (hio : ∀ cause, onFailure (.refused (.io cause)))
    (hadd : ∀ e, Word.add offset data.size = .error e → onFailure e) :
    (write offset data).Ends disk (fun _ _ => True) (fun e _ => onFailure e) := by
  refine (ends_transfer disk offset hio fun disk => ends_writeAll disk data hio).bind
    (fun _ _ h => h) ?_
  intro _ disk _
  exact .check_bind (fun _ => hadd _) fun _ _ => .modify_bind (.modifies trivial)

end FileDisk

/-! ## Openings -/

/-- Bytes stand for a number with as many base-256 digits. -/
theorem Bytes.toNat_lt (bytes : Bytes) : bytes.toNat < 256 ^ bytes.size := by
  have hdigits : ∀ (digits : List UInt8) (n : Nat),
      digits.foldl (fun n b => n * 256 + b.toNat) n < (n + 1) * 256 ^ digits.length := by
    intro digits
    induction digits with
    | nil =>
      intro n
      simp
    | cons digit rest ih =>
      intro n
      have hdigit := digit.toNat_lt
      have hnext : n * 256 + digit.toNat + 1 ≤ (n + 1) * 256 := by omega
      calc rest.foldl (fun n b => n * 256 + b.toNat) (n * 256 + digit.toNat)
          < (n * 256 + digit.toNat + 1) * 256 ^ rest.length := ih _
        _ ≤ (n + 1) * 256 * 256 ^ rest.length := Nat.mul_le_mul_right _ hnext
        _ = (n + 1) * 256 ^ (digit :: rest).length := by
          rw [List.length_cons, Nat.pow_succ, Nat.mul_assoc, Nat.mul_comm 256]
  have hall := hdigits bytes.toList 0
  rwa [Array.foldl_toList, Array.length_toList, Nat.zero_add, Nat.one_mul] at hall

namespace Attached

variable {a : Attached} {offset : Nat}

theorem ends_read_sized {len : Nat} (hlim : offset + len < Word.limit) :
    (Disk.read offset len : StepM Attached Bytes).Ends a (fun bytes _ => bytes.size = len)
      (fun e _ => e.IsRefusal) :=
  (ends_call (fun disk => disk.ends_read_sized hlim) (fun disk => disk.ends_read_sized hlim)
    (isRefusal_refused _)).mono (fun _ _ h => h.2) fun _ _ h => h.2

theorem ends_write_refusing {data : Bytes} (hlen : offset + data.size ≤ RamDisk.maxLength) :
    (Disk.write offset data : StepM Attached Unit).Ends a (fun _ _ => True)
      (fun e _ => e.IsRefusal) := by
  have hlim : offset + data.size < Word.limit := by
    unfold RamDisk.maxLength at hlen
    exact Word.lt_limit_of_lt_half (by omega)
  have hadd : ∀ e, Word.add offset data.size = .error e → e.IsRefusal := by
    intro e he
    cases (Word.add_eq_ok_iff.mpr ⟨hlim, rfl⟩).symm.trans he
  exact (ends_call (fun disk => disk.ends_write_refusing hlen)
    (fun disk => disk.ends_write offset data (fun _ => isRefusal_refused _) hadd)
    (isRefusal_refused _)).mono (fun _ _ h => h.2) fun _ _ h => h.2

end Attached

namespace Blob

open TwinRegion.Partition

theorem isRefusal_of_usable {name : String} {length : Nat} {e : Failure}
    (h : usable name length = .error e) : e.IsRefusal := by
  unfold usable at h
  split at h <;> cases h
  exact isRefusal_refused _

/-- The sum on a size word is one of 32-bit numbers. -/
theorem add_sizeOfWord {word : Bytes} (hsize : word.size = wordSize) :
    Word.add (sizeOfWord word) blockSize = .ok (sizeOfWord word + blockSize) := by
  have hword : sizeOfWord word < 1 <<< 32 := by
    have hlt := Bytes.toNat_lt word
    rw [hsize] at hlt
    exact hlt
  exact Word.add_of_lt_half (by unfold blockSize; omega)

theorem isRefusal_of_ofWords {capacity : Nat} {word mark : Bytes} (hsize : word.size = wordSize)
    {e : Failure} (h : ofWords capacity word mark = .error e) : e.IsRefusal := by
  simp only [ofWords, add_sizeOfWord hsize, ok_bind] at h
  split at h <;> cases h
  exact isRefusal_refused _

/-- Reading the partition off a device ends in a partition or a refusal. -/
theorem ends_readPartition_refusing (name : String) (a : Attached) :
    (readPartition name : StepM Attached Partition).Ends a (fun _ _ => True)
      (fun e _ => e.IsRefusal) := by
  refine .get_bind (.ite (fun _ => ?_) fun _ => ?_)
  · have hlen : standardCapacity - 1 + (#[0] : Bytes).size ≤ RamDisk.maxLength := by decide
    exact (Attached.ends_write_refusing hlen).bind (fun _ _ h => h) fun _ _ _ => .pure trivial
  refine .check_bind (fun _ he => isRefusal_of_usable he) fun capacity hcapacity => ?_
  obtain ⟨hlong, rfl⟩ := usable_eq_ok_iff.mp hcapacity
  have hwords : wordSize ≤ 2 * blockSize ∧ 2 * blockSize ≤ standardCapacity := by decide
  have hlim : min (Disk.length a) standardCapacity < Word.limit :=
    Nat.lt_of_le_of_lt (Nat.min_le_right ..) (by decide)
  refine (Attached.ends_read_sized (by decide)).bind (fun _ _ h => h) fun word a' hword => ?_
  refine .check_ok_bind (markOffset_eq_ok_iff.mpr ⟨by omega, rfl⟩) ?_
  refine (Attached.ends_read_sized (by omega)).bind (fun _ _ h => h) fun mark a'' _ => ?_
  exact .check (fun _ _ => trivial) fun _ he => isRefusal_of_ofWords hword he

end Blob

end TwinRegion
