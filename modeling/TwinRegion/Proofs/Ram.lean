/-
TwinRegion.Proofs.Ram — what calls do to a medium in memory.

Every call keeps the medium's bound and its switch for reads, and leaves
its contents as they were unless it is a write that goes through
(`Became`). There is one statement per operation; the rest of the
development uses these and does not look into the operations again.
-/
import TwinRegion.Disk.Ram
import TwinRegion.Proofs.Outcome

namespace TwinRegion.RamDisk

/-- `after` is the medium `before` with the contents `image`, up to the record of its
calls, its syncs and the writes left to it. -/
structure Became (before : RamDisk) (image : Image) (after : RamDisk) : Prop where
  image_eq : after.image = image
  bound_eq : after.bound = before.bound
  reads_eq : after.faults.reads = before.faults.reads

theorem Became.refl (disk : RamDisk) : Became disk disk.image disk := ⟨rfl, rfl, rfl⟩

/-- What a medium became last is what counts. -/
theorem Became.trans {a b c : RamDisk} {image image' : Image} (hab : Became a image b)
    (hbc : Became b image' c) : Became a image' c :=
  ⟨hbc.image_eq, hbc.bound_eq.trans hab.bound_eq, hbc.reads_eq.trans hab.reads_eq⟩

/-- Calls that leave the contents alone can be left out. -/
theorem Became.still_trans {a b c : RamDisk} (hab : Became a a.image b)
    (hbc : Became b b.image c) : Became a a.image c :=
  hab.image_eq ▸ hab.trans hbc

/-- A failure that does not speak of room in a region. -/
def Unroomy (failure : Failure) : Prop :=
  ∀ region offset len, failure ≠ .refused (.noRoom region offset len)

theorem ends_spendWrite (disk : RamDisk) :
    spendWrite.Ends disk
      (fun _ after => Became disk disk.image after)
      (fun failure after => Became disk disk.image after ∧ Unroomy failure) := by
  refine StepM.Ends.get_bind ?_
  split
  · exact StepM.Ends.pure (.refl disk)
  · exact StepM.Ends.refuse ⟨.refl disk, by intro _ _ _ h; cases h⟩
  · exact StepM.Ends.set ⟨rfl, rfl, rfl⟩

theorem unroomy_fault (fault : Fault) : Unroomy (.fault fault) := by
  intro _ _ _ h; cases h

theorem unroomy_io (error : IoError) : Unroomy (.refused (.io error)) := by
  intro _ _ _ h; cases h

theorem unroomy_add {a b : Nat} {failure : Failure} (h : Word.add a b = .error failure) :
    Unroomy failure := by
  unfold Word.add at h
  split at h <;> cases h
  exact unroomy_fault _

theorem unroomy_guardLength {length : Nat} {failure : Failure}
    (h : guardLength length = .error failure) : Unroomy failure := by
  unfold guardLength at h
  split at h <;> cases h
  exact unroomy_fault _

/-- The end of a write that fits into memory passes both of its checks. -/
theorem add_of_le_maxLength {a b : Nat} (h : a + b ≤ maxLength) :
    Word.add a b = .ok (a + b) ∧ guardLength (a + b) = .ok () := by
  constructor
  · unfold maxLength at h
    exact Word.add_of_lt_half (by omega)
  · rw [guardLength, if_neg (by omega)]
    rfl

/-- A write goes through as a whole or leaves the contents alone. -/
theorem ends_write (disk : RamDisk) (offset : Nat) (data : Bytes) :
    (write offset data).Ends disk
      (fun _ after => Became disk (disk.image.write offset data) after)
      (fun failure after => Became disk disk.image after ∧ Unroomy failure) := by
  refine StepM.Ends.modify_bind ?_
  refine (ends_spendWrite _).bind (fun failure after h => ⟨⟨h.1.1, h.1.2, h.1.3⟩, h.2⟩) ?_
  rintro _ spent ⟨himage, hbound, hreads⟩
  refine StepM.Ends.get_bind ?_
  dsimp only
  refine StepM.Ends.ite (fun _ => .refuse_bind ⟨⟨himage, hbound, hreads⟩, unroomy_io _⟩) fun _ => ?_
  refine StepM.Ends.check_bind (fun e he => ⟨⟨himage, hbound, hreads⟩, unroomy_add he⟩) fun stop _ => ?_
  have hstore : (liftM (guardLength stop) >>= fun _ =>
      set { spent with image := spent.image.write offset data } : StepM RamDisk Unit).Ends spent
        (fun _ after => Became disk (disk.image.write offset data) after)
        (fun failure after => Became disk disk.image after ∧ Unroomy failure) := by
    refine StepM.Ends.check_bind (fun e he => ⟨⟨himage, hbound, hreads⟩, unroomy_guardLength he⟩)
      fun _ _ => ?_
    exact StepM.Ends.set ⟨by rw [← himage], hbound, hreads⟩
  split
  · exact hstore
  · exact StepM.Ends.ite (fun _ => .refuse_bind ⟨⟨himage, hbound, hreads⟩, unroomy_io _⟩) fun _ => hstore

/-- The medium takes a write of `data` at `offset` now. -/
def takes (disk : RamDisk) (offset : Nat) (data : Bytes) : Bool :=
  ((write offset data).answer disk).isOk

/-- The contents after a write of `data` at `offset`, taken or not. -/
def written (disk : RamDisk) (offset : Nat) (data : Bytes) : Image :=
  if disk.takes offset data then disk.image.write offset data else disk.image

/-- A write inside the medium does not lengthen it. -/
theorem size_written {disk : RamDisk} {offset : Nat} {data : Bytes}
    (h : offset + data.size ≤ disk.image.size) :
    (disk.written offset data).size = disk.image.size := by
  unfold written
  split
  · rw [Image.size_write]
    omega
  · rfl

theorem byte_written_of_outside {disk : RamDisk} {offset : Nat} {data : Bytes} {x : Nat}
    (h : x < offset ∨ offset + data.size ≤ x) :
    (disk.written offset data).byte x = disk.image.byte x := by
  unfold written
  split
  · rw [Image.byte_write, if_neg (by omega)]
  · rfl

theorem ends_write_takes (disk : RamDisk) (offset : Nat) (data : Bytes) :
    (write offset data).Ends disk
      (fun _ after => disk.takes offset data = true ∧ Became disk (disk.written offset data) after)
      (fun _ after => Became disk (disk.written offset data) after) := by
  refine (ends_write disk offset data).traced.mono ?_ ?_
  · rintro _ after ⟨hanswer, -, hafter⟩
    have htakes : disk.takes offset data = true := by rw [takes, hanswer]; rfl
    exact ⟨htakes, by rw [written, if_pos htakes]; exact hafter⟩
  · rintro e after ⟨hanswer, -, hafter, -⟩
    have htakes : disk.takes offset data = false := by rw [takes, hanswer]; rfl
    rw [written, htakes]
    exact hafter

theorem ends_read (disk : RamDisk) (offset len : Nat) :
    (read offset len).Ends disk
      (fun bytes after => bytes = disk.image.read offset len ∧ Became disk disk.image after)
      (fun _ after => Became disk disk.image after) := by
  refine StepM.Ends.modify_bind (StepM.Ends.get_bind ?_)
  dsimp only
  refine StepM.Ends.ite (fun _ => .refuse_bind ⟨rfl, rfl, rfl⟩) fun _ => ?_
  refine StepM.Ends.check_bind (fun _ _ => ⟨rfl, rfl, rfl⟩) fun stop _ => ?_
  exact StepM.Ends.ite (fun _ => .refuse_bind ⟨rfl, rfl, rfl⟩) fun _ => .pure ⟨rfl, rfl, rfl, rfl⟩

/-- A read inside the medium succeeds while reads work. -/
theorem run_read_within {disk : RamDisk} {offset len : Nat} (hreads : disk.faults.reads = false)
    (hin : offset + len ≤ disk.image.size) (hlim : offset + len < Word.limit) :
    (read offset len).run disk =
      .ok (disk.image.read offset len) { disk with calls := .read offset len :: disk.calls } := by
  have hadd : Word.add offset len = .ok (offset + len) := Word.add_eq_ok_iff.mpr ⟨hlim, rfl⟩
  simp [read, record, hreads, hadd, Nat.not_lt.mpr hin]

theorem ends_read_within {disk : RamDisk} {offset len : Nat} (hreads : disk.faults.reads = false)
    (hin : offset + len ≤ disk.image.size) (hlim : offset + len < Word.limit) :
    (read offset len).Ends disk
      (fun bytes after => bytes = disk.image.read offset len ∧ Became disk disk.image after)
      (fun _ _ => False) :=
  .of_run_ok (run_read_within hreads hin hlim) ⟨rfl, rfl, rfl, rfl⟩

/-- What a read answers depends on the bytes that it covers, on the length of the medium and
on whether reads work. -/
theorem answer_read_congr {a b : RamDisk} {offset len : Nat} (hsize : a.image.size = b.image.size)
    (hbytes : a.image.read offset len = b.image.read offset len)
    (hreads : a.faults.reads = b.faults.reads) :
    (read offset len).answer a = (read offset len).answer b := by
  unfold StepM.answer
  simp only [read, record, EStateM.run_bind, EStateM.run_modify, EStateM.run_get, StepM.run_ite,
    hsize, hbytes, hreads]
  cases b.faults.reads with
  | true => simp
  | false =>
    cases Word.add offset len with
    | error e => simp
    | ok stop => by_cases hin : b.image.size < stop <;> simp [hin]

theorem ends_sync (disk : RamDisk) (level : SyncLevel) :
    (sync level).Ends disk
      (fun _ after => Became disk disk.image after)
      (fun _ after => Became disk disk.image after) := by
  refine StepM.Ends.modify_bind (StepM.Ends.get_bind ?_)
  dsimp only
  exact StepM.Ends.ite (fun _ => .refuse_bind ⟨rfl, rfl, rfl⟩) fun _ => .set ⟨rfl, rfl, rfl⟩

theorem ends_close (disk : RamDisk) :
    close.Ends disk
      (fun _ after => Became disk disk.image after)
      (fun _ after => Became disk disk.image after) := by
  refine StepM.Ends.modify_bind (StepM.Ends.get_bind ?_)
  exact StepM.Ends.ite (fun _ => .refuse ⟨rfl, rfl, rfl⟩) fun _ => .pure ⟨rfl, rfl, rfl⟩

end TwinRegion.RamDisk
