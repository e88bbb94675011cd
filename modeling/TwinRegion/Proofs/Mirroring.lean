/-
TwinRegion.Proofs.Mirroring — a file and a medium in memory with the same bytes.

What a call is to make of the bytes on a disk can be said without the disk
(`DiskRequest.imageAfter`, `DiskRequest.answerFrom`). A disk is faithful if
its states stand for bytes and every proper call does just that to them
(`Disk.Faithful`).

* A medium in memory that grows and fails no call is faithful
  (`RamDisk.faithful`), and so is an open regular file, whose length as its
  handle knows it is the length of the file (`FileDisk.faithful`).
* Faithful disks with the same bytes answer every run of calls alike and go
  on having the same bytes, so what holds of media in memory stands for files
  (`file_mirrors_memory`).
-/
import TwinRegion.Proofs.Accepting
import TwinRegion.Proofs.Seeking

namespace TwinRegion

open StepM

/-! ## Calls and bytes -/

namespace DiskRequest

/-- A transfer of at least one byte that ends below the limit of a file's positions, or a sync. -/
def Proper : DiskRequest → Prop
  | .read offset len => 0 < len ∧ offset + len < FileDisk.positionLimit
  | .write offset data => 0 < data.size ∧ offset + data.size < FileDisk.positionLimit
  | .sync _ => True

/-- The bytes on a disk after the call. -/
def imageAfter (image : Image) : DiskRequest → Image
  | .write offset data => image.write offset data
  | .read .. | .sync _ => image

/-- What the call answers from the bytes on a disk. A read past their end has no answer. -/
def answerFrom (image : Image) : DiskRequest → Option Bytes
  | .read offset len => if offset + len ≤ image.size then some (image.read offset len) else none
  | .write .. | .sync _ => some #[]

theorem Proper.within {request : DiskRequest} (h : request.Proper) : request.Within := by
  cases request with
  | read offset len => exact h.2
  | write offset data => exact h.2
  | sync level => trivial

/-- What lies between the old end and a write behind it is zero. -/
theorem byte_gap {image : Image} {offset x : Nat} (data : Bytes) (hend : image.size ≤ x)
    (hgap : x < offset) : ((DiskRequest.write offset data).imageAfter image).byte x = 0 := by
  rw [imageAfter, Image.byte_write, if_neg (by omega), image.byte_eq_zero hend]

end DiskRequest

/-- Both succeed with the same value, or both are refused. -/
inductive SameOutcome {α : Type} : Except Failure α → Except Failure α → Prop where
  | ok (a : α) : SameOutcome (.ok a) (.ok a)
  | refused (error error' : Error) :
    SameOutcome (.error (.refused error)) (.error (.refused error'))

/-- Every proper call answers from the bytes that the state of the disk stands for, or is refused
if they have no answer, and leaves a state that stands for what the call makes of them. -/
def Disk.Faithful {δ : Type} [Disk δ] (holds : δ → Image → Prop) : Prop :=
  ∀ {s image} {request : DiskRequest}, request.Proper → holds s image →
    request.perform.Ends s
      (fun bytes after => request.answerFrom image = some bytes ∧
        holds after (request.imageAfter image))
      (fun e after => request.answerFrom image = none ∧ e.IsRefusal ∧
        holds after (request.imageAfter image))

namespace Disk.Faithful

variable {δ ε : Type} [Disk δ] [Disk ε] {holds : δ → Image → Prop} {holds' : ε → Image → Prop}
  {s : δ} {t : ε} {image : Image}

/-- A call leaves what it makes of the bytes, answered or refused. -/
theorem after (h : Faithful holds) {request : DiskRequest} (hproper : request.Proper)
    (hs : holds s image) : holds (request.perform.reached s) (request.imageAfter image) :=
  ((h hproper hs).mono (fun _ _ hend => hend.2) fun _ _ hend => hend.2.2).reached

/-- A run of calls leaves what each of them makes of the bytes in turn. -/
theorem afterAll (h : Faithful holds) {requests : List DiskRequest}
    (hproper : ∀ request ∈ requests, request.Proper) (hs : holds s image) :
    holds (StepM.afterAll DiskRequest.perform s requests)
      (requests.foldl DiskRequest.imageAfter image) := by
  induction requests generalizing s image with
  | nil => exact hs
  | cons request rest ih =>
    have hfirst := h.after (hproper request List.mem_cons_self) hs
    exact ih (fun later hlater => hproper later (List.mem_cons_of_mem _ hlater)) hfirst

theorem answer_of_some (h : Faithful holds) {request : DiskRequest} (hproper : request.Proper)
    (hs : holds s image) {bytes : Bytes} (hbytes : request.answerFrom image = some bytes) :
    request.perform.answer s = .ok bytes := by
  have hends := h hproper hs
  cases hanswer : request.perform.answer s with
  | ok got =>
    have hgot := (hends.value got hanswer).1
    rw [Option.some.inj (hgot.symm.trans hbytes)]
  | error e => cases (hends.failure e hanswer).1.symm.trans hbytes

theorem exists_refusal_of_none (h : Faithful holds) {request : DiskRequest}
    (hproper : request.Proper) (hs : holds s image) (hnone : request.answerFrom image = none) :
    ∃ error, request.perform.answer s = .error (.refused error) := by
  have hends := h hproper hs
  cases hanswer : request.perform.answer s with
  | ok got => cases (hends.value got hanswer).1.symm.trans hnone
  | error e =>
    obtain ⟨error, rfl⟩ := (hends.failure e hanswer).2.1
    exact ⟨error, rfl⟩

/-- Two faithful disks with the same bytes answer a call alike. -/
theorem sameOutcome (h : Faithful holds) (h' : Faithful holds') {request : DiskRequest}
    (hproper : request.Proper) (hs : holds s image) (ht : holds' t image) :
    SameOutcome (request.perform.answer s) (request.perform.answer t) := by
  cases hbytes : request.answerFrom image with
  | some bytes =>
    rw [h.answer_of_some hproper hs hbytes, h'.answer_of_some hproper ht hbytes]
    exact .ok bytes
  | none =>
    obtain ⟨error, herror⟩ := h.exists_refusal_of_none hproper hs hbytes
    obtain ⟨error', herror'⟩ := h'.exists_refusal_of_none hproper ht hbytes
    rw [herror, herror']
    exact .refused error error'

end Disk.Faithful

/-! ## Memory -/

namespace RamDisk

/-- A medium that grows and fails no call holds these bytes. -/
def Holds (disk : RamDisk) (image : Image) : Prop := disk.Healthy ∧ disk.image = image

/-- A read past the end is refused. -/
theorem run_read_past {disk : RamDisk} {offset len : Nat} (hreads : disk.faults.reads = false)
    (hpast : disk.image.size < offset + len) (hlim : offset + len < Word.limit) :
    (read offset len).run disk =
      .error (.refused (.io (.readPastEnd len offset disk.image.size)))
        { disk with calls := .read offset len :: disk.calls } := by
  have hadd : Word.add offset len = .ok (offset + len) := Word.add_eq_ok_iff.mpr ⟨hlim, rfl⟩
  simp only [read, record, EStateM.run_bind, EStateM.run_modify, EStateM.run_get, run_ite, hreads,
    hadd, run_lift_ok]
  rw [if_neg Bool.false_ne_true, if_pos hpast]
  rfl

theorem faithful : Disk.Faithful Holds := by
  intro disk image request hproper hdisk
  obtain ⟨hhealthy, rfl⟩ := hdisk
  cases request with
  | read offset len =>
    have hlim : offset + len < Word.limit := Word.lt_limit_of_lt_half hproper.2
    have hreads : disk.faults.reads = false := by rw [hhealthy.faults_eq]; rfl
    by_cases hin : offset + len ≤ disk.image.size
    · refine .of_run_ok (run_read_within hreads hin hlim) ⟨?_, ⟨hhealthy.1, hhealthy.2⟩, rfl⟩
      rw [DiskRequest.answerFrom, if_pos hin]
    · refine .of_run_error (run_read_past hreads (by omega) hlim)
        ⟨?_, isRefusal_refused _, ⟨hhealthy.1, hhealthy.2⟩, rfl⟩
      rw [DiskRequest.answerFrom, if_neg hin]
  | write offset data =>
    have hlen : offset + data.size ≤ maxLength := Nat.le_sub_one_of_lt hproper.2
    refine .of_run_ok (a := #[]) (run_bind_of_ok (hhealthy.run_write hlen)) ?_
    exact ⟨rfl, hhealthy.put offset data, rfl⟩
  | sync level =>
    refine .of_run_ok (a := #[]) (run_bind_of_ok (hhealthy.run_sync level)) ?_
    exact ⟨rfl, ⟨hhealthy.1, hhealthy.2⟩, rfl⟩

end RamDisk

/-! ## Files -/

namespace FileDisk

/-- An open regular file holds these bytes, and its handle knows how many they are. -/
def Bears (disk : FileDisk) (image : Image) : Prop :=
  disk.body = .regular image ∧ disk.handle.length = image.size

/-- It is also where its handle remembers to be. -/
def Holds (disk : FileDisk) (image : Image) : Prop := disk.Bears image ∧ disk.Placed

variable {disk other : FileDisk} {image : Image}

theorem Fellows.bears (h : Fellows disk other) (hother : other.Bears image) : disk.Bears image :=
  ⟨h.body_eq.trans hother.1, h.length_eq.trans hother.2⟩

/-- From its place on, a read depends on the bytes of the file alone. -/
theorem run_readExact_there (hbody : disk.body = .regular image) {offset len : Nat} (hpos : 0 < len)
    (hlim : offset + len < positionLimit) :
    (readExact len).run (disk.movedTo offset) =
      if image.size < offset + len then
        .error (.refused (.io .unfilledBuffer)) (disk.movedTo (max offset image.size))
      else .ok (image.read offset len) (disk.movedTo (offset + len)) := by
  have hthere : (disk.movedTo offset).body = .regular image := hbody
  have hposition : (disk.movedTo offset).handle.position = offset := rfl
  simp only [readExact, EStateM.run_bind, EStateM.run_get, hthere, hposition, run_ite]
  rw [if_neg (by omega), if_neg (Nat.not_le.mpr hlim)]
  rfl

theorem run_writeAll_there (hbody : disk.body = .regular image) {offset : Nat} {data : Bytes}
    (hpos : 0 < data.size) (hlim : offset + data.size < positionLimit) :
    (writeAll data).run (disk.movedTo offset) =
      .ok () (movedTo { disk with body := .regular (image.write offset data) }
        (offset + data.size)) := by
  have hthere : (disk.movedTo offset).body = .regular image := hbody
  have hposition : (disk.movedTo offset).handle.position = offset := rfl
  have hdata : data.isEmpty = false := by simpa [Array.isEmpty, Nat.pos_iff_ne_zero] using hpos
  simp only [writeAll, EStateM.run_bind, EStateM.run_get, hthere, hposition, run_ite]
  rw [if_neg (by simp [hdata]), if_neg (Nat.not_le.mpr hlim)]
  rfl

/-- With a seek before every transfer, a call does to the bytes of a file what it is to do. -/
theorem ends_seeking {request : DiskRequest} (hproper : request.Proper) (h : disk.Bears image) :
    (request.seeking ⟨none, none⟩).Ends disk
      (fun bytes after => request.answerFrom image = some bytes ∧
        after.Bears (request.imageAfter image))
      (fun e after => request.answerFrom image = none ∧ e.IsRefusal ∧
        after.Bears (request.imageAfter image)) := by
  cases request with
  | read offset len =>
    have hlim : offset < positionLimit := Nat.lt_of_le_of_lt (Nat.le_add_right ..) hproper.2
    have hrun : ((DiskRequest.read offset len).seeking ⟨none, none⟩).run disk = _ :=
      (run_bind_of_ok (run_seek hlim disk)).trans (run_readExact_there h.1 hproper.1 hproper.2)
    by_cases hin : offset + len ≤ image.size
    · rw [if_neg (Nat.not_lt.mpr hin)] at hrun
      refine .of_run_ok hrun ⟨?_, h⟩
      rw [DiskRequest.answerFrom, if_pos hin]
    · rw [if_pos (Nat.lt_of_not_le hin)] at hrun
      refine .of_run_error hrun ⟨?_, isRefusal_refused _, h⟩
      rw [DiskRequest.answerFrom, if_neg hin]
  | write offset data =>
    have hlim : offset < positionLimit := Nat.lt_of_le_of_lt (Nat.le_add_right ..) hproper.2
    have hlength : max disk.handle.length (offset + data.size) =
        (image.write offset data).size := by rw [h.2, Image.size_write]
    refine .of_run_ok ((run_bind_of_ok (run_seek hlim disk)).trans
      (run_bind_of_ok (run_writeAll_there h.1 hproper.1 hproper.2))) ⟨rfl, rfl, hlength⟩
  | sync level =>
    have hrun : (sync level).run disk = .ok () disk := by simp [sync, h.1]
    exact .of_run_ok (a := #[]) (run_bind_of_ok hrun) ⟨rfl, h⟩

/-- A regular file that was just opened holds its bytes. -/
theorem holds_of_openAt {path : String} {store opened : FileStore} {handle : FileHandle}
    (hopen : (FileHandle.openAt path).run store = .ok handle opened)
    (hbody : opened.body handle.number = .regular image) :
    Holds ⟨handle, opened.body handle.number⟩ image := by
  obtain ⟨hanswer, hopened⟩ := run_eq_ok_iff.mp hopen
  have hlength := ((FileHandle.ends_openAt path store).value handle hanswer).2
  rw [hopened, hbody] at hlength
  exact ⟨⟨hbody, hlength⟩, placed_of_openAt hopen _⟩

theorem faithful : Disk.Faithful Holds := by
  intro disk image request hproper h
  let trial : Trial := ⟨request, none, none, none⟩
  have halike := trial.alike (rfl : disk.Fellows disk) h.2 hproper.within
  have hplaced := trial.ends_saving_placed h.2 hproper.within
  have hplain := ends_seeking hproper h.1
  rw [← request.saving_undisturbed]
  have hends := halike.ends hplain
  constructor
  · intro bytes hanswer
    obtain ⟨after, hfellows, hbytes, hbears⟩ := hends.value bytes hanswer
    exact ⟨hbytes, hfellows.bears hbears, hplaced.value bytes hanswer⟩
  · intro e hanswer
    obtain ⟨after, hfellows, hnone, hrefusal, hbears⟩ := hends.failure e hanswer
    exact ⟨hnone, hrefusal, hfellows.bears hbears, hplaced.failure e hanswer⟩

end FileDisk

/-! ## Both -/

/-- A regular file that was just opened and a medium in memory with the same bytes: whatever is
called of both, their bytes and lengths remain the same, the length is that of the file itself, and
any next call has the same outcome on both, which is the answer of the bytes if they have one. What
a write leaves behind the old end is zero. -/
theorem file_mirrors_memory {path : String} {store opened : FileStore} {handle : FileHandle}
    (hopen : (FileHandle.openAt path).run store = .ok handle opened) {ram : RamDisk}
    (hram : ram.Healthy) (hsame : opened.body handle.number = .regular ram.image)
    {before : List DiskRequest} (hbefore : ∀ request ∈ before, request.Proper) :
    let file := afterAll DiskRequest.perform (⟨handle, opened.body handle.number⟩ : FileDisk) before
    let memory := afterAll DiskRequest.perform ram before
    file.body = .regular memory.image ∧ Disk.length file = Disk.length memory ∧
      Disk.length file = file.body.length ∧
      (∀ request : DiskRequest, request.Proper →
        SameOutcome (request.perform.answer file) (request.perform.answer memory) ∧
          ∀ bytes, request.answerFrom memory.image = some bytes →
            request.perform.answer file = .ok bytes) ∧
      ∀ offset data, (DiskRequest.write offset data).Proper →
        ∀ x, Disk.length file ≤ x → x < offset →
          ((DiskRequest.write offset data).perform.reached file).body.image.byte x = 0 := by
  intro file memory
  let last := before.foldl DiskRequest.imageAfter ram.image
  have hstart : FileDisk.Holds ⟨handle, opened.body handle.number⟩ ram.image :=
    FileDisk.holds_of_openAt hopen hsame
  have hfile : file.Holds last := FileDisk.faithful.afterAll hbefore hstart
  have hmemory : memory.Holds last := RamDisk.faithful.afterAll hbefore ⟨hram, rfl⟩
  have hbody : file.body = .regular memory.image := by rw [hfile.1.1, hmemory.2]
  have hlength : Disk.length file = Disk.length memory := by
    show file.handle.length = memory.image.size
    rw [hfile.1.2, hmemory.2]
  refine ⟨hbody, hlength, by rw [hbody]; exact hlength, ?_, ?_⟩
  · intro request hproper
    refine ⟨FileDisk.faithful.sameOutcome RamDisk.faithful hproper hfile hmemory, fun bytes h => ?_⟩
    rw [hmemory.2] at h
    exact FileDisk.faithful.answer_of_some hproper hfile h
  · intro offset data hproper x hend hgap
    have hafter := FileDisk.faithful.after hproper hfile
    rw [hafter.1.1]
    exact DiskRequest.byte_gap data (hfile.1.2 ▸ hend) hgap

/-- A regular file without bytes. -/
def FileBody.isBlank : FileBody → Bool
  | .regular image => image.size == 0
  | .null | .full => false

theorem FileBody.eq_of_isBlank {body : FileBody} (h : body.isBlank = true) :
    body = .regular .empty := by
  cases body with
  | regular image =>
    have hsize : image.size = 0 := by simpa [isBlank] using h
    have himage : image = .empty := Image.ext_byte hsize fun x => by
      rw [image.byte_eq_zero (by omega), Image.byte_empty]
    rw [himage]
  | null | full => cases h

/-- A new file and an empty medium, before and after a write that leaves a gap. -/
theorem new_file_mirrors_memory : ∃ handle opened,
    (FileHandle.openAt "a").run .initial = .ok handle opened ∧
      let gap : DiskRequest := .write 5 #[1, 2]
      let past : DiskRequest := .read 0 8
      let disk : FileDisk := ⟨handle, opened.body handle.number⟩
      let file := afterAll DiskRequest.perform disk [gap, past]
      let memory := afterAll DiskRequest.perform RamDisk.growable [gap, past]
      file.body = .regular memory.image ∧
        SameOutcome ((DiskRequest.read 3 4).perform.answer file)
          ((DiskRequest.read 3 4).perform.answer memory) := by
  have hopens : ((FileStore.initial.openFile "a").toOption.any fun file =>
      (file.2.body file.1).isBlank) = true := by decide +kernel
  cases hopen : FileStore.initial.openFile "a" with
  | error cause =>
    rw [hopen] at hopens
    cases hopens
  | ok file =>
    obtain ⟨number, opened⟩ := file
    have hempty : opened.body number = .regular .empty := by
      rw [hopen] at hopens
      exact FileBody.eq_of_isBlank hopens
    have hbefore : ∀ request ∈ [DiskRequest.write 5 #[1, 2], .read 0 8], request.Proper := by
      simp only [List.forall_mem_cons, List.not_mem_nil, false_imp_iff, implies_true, and_true]
      exact ⟨⟨by decide, by decide⟩, by decide, by decide⟩
    have hrun := FileHandle.run_openAt hopen
    have hmirrors := @file_mirrors_memory "a" _ _ _ hrun .growable ⟨rfl, rfl⟩ hempty _ hbefore
    have hproper : (DiskRequest.read 3 4).Proper := ⟨by decide, by decide⟩
    exact ⟨_, _, hrun, hmirrors.1, (hmirrors.2.2.2.1 _ hproper).1⟩

end TwinRegion
