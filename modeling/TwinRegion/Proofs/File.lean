/-
TwinRegion.Proofs.File — what calls do to an open file.

A handle transfers where its position is, and saves itself the seek if it
remembers to be there already. That is right as long as what it remembers is
so (`Steady`), and every call keeps it so: a transfer either ends where it
is remembered to end, or is forgotten. A steady handle therefore writes at
the offset it is told or nothing at all (`ends_write_became`), and its reads
leave the file alone (`ends_read_became`). Device files keep no position and
no bytes, and nothing is said about their positions.
-/
import TwinRegion.Disk.File
import TwinRegion.Proofs.Outcome

namespace TwinRegion

open StepM

/-- What a write of `data` at `offset` makes of contents when it goes through. -/
def FileBody.written (offset : Nat) (data : Bytes) : FileBody → FileBody
  | .regular image => .regular (if data.isEmpty then image else image.write offset data)
  | .null => .null
  | .full => .full

namespace FileDisk

/-- The handle is where it remembers to be, in a file where that matters. -/
def Steady (disk : FileDisk) : Prop :=
  ∀ image offset, disk.body = .regular image → disk.handle.remembered = some offset →
    disk.handle.position = offset

/-- `after` is the opening `before` of a file, still steady, with the contents `body`. -/
structure Became (before : FileDisk) (body : FileBody) (after : FileDisk) : Prop where
  number_eq : after.handle.number = before.handle.number
  body_eq : after.body = body
  steady : after.Steady

/-- A transfer of `len` bytes at `offset` is done and not yet remembered: the position is at its
end, which is no number too large unless nothing has moved. -/
structure Done (before : FileDisk) (body : FileBody) (offset len : Nat) (after : FileDisk) : Prop where
  number_eq : after.handle.number = before.handle.number
  body_eq : after.body = body
  position_eq : ∀ image, body = .regular image → after.handle.position = offset + len
  bounded : ∀ image, body = .regular image →
    offset + len < positionLimit ∨ after.handle.remembered = some (offset + len)

/-- A part of a transfer was refused, and the file is as it was. -/
def Undone (before : FileDisk) (e : Failure) (after : FileDisk) : Prop :=
  (∃ error, e = .refused error) ∧ after.handle.number = before.handle.number ∧
    after.body = before.body

variable {disk after : FileDisk} {body : FileBody} {offset len : Nat}

/-- What is not remembered cannot be wrong. -/
theorem became_forget (hnumber : after.handle.number = disk.handle.number)
    (hbody : after.body = body) :
    Became disk body { after with handle := { after.handle with remembered := none } } :=
  ⟨hnumber, hbody, fun _ _ _ hnone => by cases hnone⟩

/-- A transfer that is done is remembered rightly. -/
theorem Done.remember (h : Done disk body offset len after) :
    Became disk body { after with handle := { after.handle with remembered := some (offset + len) } } := by
  refine ⟨h.number_eq, h.body_eq, fun image stop hbody hstop => ?_⟩
  obtain rfl := Option.some.inj hstop
  exact h.position_eq image (h.body_eq.symm.trans hbody)

/-! ## Parts of a transfer -/

theorem ends_moveTo_done (h : disk.Steady) (offset : Nat) :
    (moveTo offset).Ends disk (fun _ => Done disk disk.body offset 0) (Undone disk) := by
  refine .get_bind (.ite (fun _ => .get_bind ?_) fun hthere => .pure ?_)
  · cases hbody : disk.body with
    | regular image =>
      refine .ite (fun _ => .refuse_bind ⟨⟨_, rfl⟩, rfl, rfl⟩) fun hlimit => .modifies ?_
      exact ⟨rfl, hbody, fun _ _ => rfl, fun _ _ => .inl (Nat.lt_of_not_le hlimit)⟩
    | null => exact .modifies ⟨rfl, hbody, fun _ h => (by cases h), fun _ h => (by cases h)⟩
    | full => exact .modifies ⟨rfl, hbody, fun _ h => (by cases h), fun _ h => (by cases h)⟩
  · have hthere := Decidable.not_not.mp hthere
    exact ⟨rfl, rfl, fun image hbody => h image offset hbody hthere, fun _ _ => .inr hthere⟩

theorem ends_readExact_done (h : Done disk disk.body offset 0 after) (len : Nat) :
    (readExact len).Ends after (fun _ => Done disk disk.body offset len) (Undone disk) := by
  refine .get_bind (.ite (fun hnone => .pure ?_) fun hsome => ?_)
  · subst hnone
    exact h
  · cases hbody : after.body with
    | regular image =>
      have hposition := h.position_eq image (h.body_eq.symm.trans hbody)
      refine .ite (fun _ => .refuse_bind ⟨⟨_, rfl⟩, h.number_eq, h.body_eq⟩) fun hlimit => ?_
      refine .ite (fun _ => .modify_bind (.refuse_bind ⟨⟨_, rfl⟩, h.number_eq, h.body_eq⟩))
        fun _ => .modify_bind (.pure ?_)
      refine ⟨h.number_eq, h.body_eq, fun _ _ => ?_, fun _ _ => .inl ?_⟩
      · show after.handle.position + len = offset + len
        rw [hposition, Nat.add_zero]
      · rw [hposition, Nat.add_zero] at hlimit
        exact Nat.lt_of_not_le hlimit
    | null => exact .refuse ⟨⟨_, rfl⟩, h.number_eq, h.body_eq⟩
    | full =>
      have hfull : disk.body = .full := h.body_eq.symm.trans hbody
      refine .modify_bind (.pure ⟨h.number_eq, h.body_eq, ?_, ?_⟩) <;>
        · rw [hfull]
          intro _ h
          cases h

theorem ends_writeAll_done (h : Done disk disk.body offset 0 after) (data : Bytes) :
    (writeAll data).Ends after (fun _ => Done disk (disk.body.written offset data) offset data.size)
      (Undone disk) := by
  refine .get_bind (.ite (fun hempty => .pure ?_) fun hsome => ?_)
  · have hsize : data.size = 0 := by simpa [Array.isEmpty] using hempty
    have hbody : disk.body.written offset data = disk.body := by
      cases disk.body <;> simp [FileBody.written, hempty]
    rw [hbody, hsize]
    exact h
  · cases hbody : after.body with
    | regular image =>
      have hdisk : disk.body = .regular image := h.body_eq.symm.trans hbody
      have hposition : after.handle.position = offset := h.position_eq image hdisk
      refine .ite (fun _ => .refuse_bind ⟨⟨_, rfl⟩, h.number_eq, h.body_eq⟩) fun hlimit => ?_
      refine .of_run_ok rfl ⟨h.number_eq, ?_, fun _ _ => ?_, fun _ _ => .inl ?_⟩
      · rw [hdisk, FileBody.written, if_neg hsome, ← hposition]
      · show after.handle.position + data.size = offset + data.size
        rw [hposition]
      · rw [hposition] at hlimit
        exact Nat.lt_of_not_le hlimit
    | null =>
      have hnull : disk.body = .null := h.body_eq.symm.trans hbody
      refine .modifies ⟨h.number_eq, ?_, ?_, ?_⟩
      · rw [hnull]
        exact hbody
      all_goals
        rw [hnull]
        intro _ h
        cases h
    | full => exact .refuse ⟨⟨_, rfl⟩, h.number_eq, h.body_eq⟩

/-- A transfer is done, or refused and forgotten. -/
theorem ends_transfer_done {α : Type} (h : disk.Steady) {act : StepM FileDisk α}
    (hact : ∀ {after}, Done disk disk.body offset 0 after →
      act.Ends after (fun _ => Done disk body offset len) (Undone disk)) :
    (transfer offset act).Ends disk (fun _ => Done disk body offset len)
      (fun _ => Became disk disk.body) := by
  have hmoved : (do moveTo offset; act : StepM FileDisk α).Ends disk
      (fun _ => Done disk body offset len) (Undone disk) :=
    (ends_moveTo_done h offset).bind (fun _ _ h => h) fun _ _ hthere => hact hthere
  refine (hmoved.attempt_of_refused fun _ _ h => h.1).bind (fun _ _ h => h.elim) ?_
  intro result after hend
  cases result with
  | ok a => exact .pure hend
  | error error => exact .modify_bind (.refuse (became_forget hend.2.1 hend.2.2))

/-! ## Calls -/

/-- A read leaves the file as it was. -/
theorem ends_read_became (h : disk.Steady) (offset len : Nat) :
    (read offset len).Ends disk (fun _ => Became disk disk.body) (fun _ => Became disk disk.body) := by
  refine (ends_transfer_done h fun hthere => ends_readExact_done hthere len).bind
    (fun _ _ h => h) fun bytes after hdone => ?_
  refine .check_bind (fun e he => ?_) fun stop hstop => ?_
  · -- nothing has moved, so what was remembered before is still right
    refine ⟨hdone.number_eq, hdone.body_eq, fun image there hbody hthere => ?_⟩
    have himage : disk.body = .regular image := hdone.body_eq.symm.trans hbody
    have hlarge : ¬ offset + len < positionLimit := by
      intro hsmall
      rw [Word.add_of_lt_half hsmall] at he
      cases he
    rw [hdone.position_eq image himage]
    exact Option.some.inj (((hdone.bounded image himage).resolve_left hlarge).symm.trans hthere)
  · obtain ⟨-, rfl⟩ := Word.add_eq_ok_iff.mp hstop
    exact .modify_bind (.pure hdone.remember)

/-- From its place inside the file a transfer reads the bytes there. -/
theorem exists_run_readExact {image : Image} (hbody : after.body = .regular image)
    (hposition : after.handle.position = offset) (hin : offset + len ≤ image.size)
    (hlim : offset + len < positionLimit) :
    ∃ last, (readExact len).run after = .ok (image.read offset len) last := by
  simp only [readExact, EStateM.run_bind, EStateM.run_get, hbody, hposition, run_ite]
  by_cases hnone : len = 0
  · subst hnone
    have hempty : image.read offset 0 = #[] := Array.eq_empty_of_size_eq_zero (Image.size_read ..)
    exact ⟨after, by rw [if_pos rfl, hempty]; rfl⟩
  · rw [if_neg hnone, if_neg (Nat.not_le.mpr hlim), if_neg (Nat.not_lt.mpr hin)]
    exact ⟨_, rfl⟩

/-- A file can be moved to any offset below the limit of its positions. -/
theorem ends_moveTo_within (h : disk.Steady) {image : Image} (hbody : disk.body = .regular image)
    (hlim : offset < positionLimit) :
    (moveTo offset).Ends disk (fun _ => Done disk disk.body offset 0) (fun _ _ => False) := by
  refine (ends_moveTo_done h offset).of_no_failure ?_
  refine .get_bind (.ite (fun _ => .get_bind ?_) fun _ => .pure trivial)
  rw [hbody]
  exact .ite (fun hfar => absurd hfar (Nat.not_le.mpr hlim)) fun _ => .modifies trivial

/-- A transfer of which no part fails does not fail. -/
theorem ends_transfer_within {α : Type} {act : StepM FileDisk α} {onValue : α → FileDisk → Prop}
    (hact : (do moveTo offset; act : StepM FileDisk α).Ends disk onValue (fun _ _ => False)) :
    (transfer offset act).Ends disk onValue (fun _ _ => False) := by
  refine hact.attempt.bind (fun _ _ h => h) fun result after hend => ?_
  cases result with
  | ok a => exact .pure hend
  | error error => exact hend.elim

/-- A read inside the file succeeds. -/
theorem ends_read_within (h : disk.Steady) {image : Image} (hbody : disk.body = .regular image)
    (hin : offset + len ≤ image.size) (hlim : offset + len < positionLimit) :
    (read offset len).Ends disk
      (fun bytes after => bytes = image.read offset len ∧ Became disk disk.body after)
      (fun _ _ => False) := by
  have hreads : (do moveTo offset; readExact len : StepM FileDisk Bytes).Ends disk
      (fun bytes after => bytes = image.read offset len ∧ Done disk disk.body offset len after)
      (fun _ _ => False) := by
    refine (ends_moveTo_within h hbody (by omega)).bind (fun _ _ h => h) fun _ after hthere => ?_
    obtain ⟨last, hrun⟩ := exists_run_readExact (hthere.body_eq.trans hbody)
      (hthere.position_eq image hbody) hin hlim
    obtain ⟨hanswer, hreached⟩ := run_eq_ok_iff.mp hrun
    have hdone := (ends_readExact_done hthere len).value _ hanswer
    exact .of_run_ok hrun ⟨rfl, hreached ▸ hdone⟩
  refine (ends_transfer_within hreads).bind (fun _ _ h => h) fun bytes after hdone => ?_
  exact .check_ok_bind (Word.add_of_lt_half hlim) (.modify_bind (.pure ⟨hdone.1, hdone.2.remember⟩))

/-- A write goes through at its offset or leaves the file as it was. -/
theorem ends_write_became (h : disk.Steady) {offset : Nat} {data : Bytes}
    (hlim : offset + data.size < Word.limit) :
    (write offset data).Ends disk (fun _ => Became disk (disk.body.written offset data))
      (fun _ => Became disk disk.body) := by
  refine (ends_transfer_done h fun hthere => ends_writeAll_done hthere data).bind
    (fun _ _ h => h) fun _ after hdone => ?_
  refine .check_ok_bind (Word.add_eq_ok_iff.mpr ⟨hlim, rfl⟩) (.modify_bind (.modifies ?_))
  obtain ⟨hnumber, hbody, hsteady⟩ := hdone.remember
  exact ⟨hnumber, hbody, hsteady⟩

/-- A write below the limit of the positions succeeds. -/
theorem ends_write_within (h : disk.Steady) {image : Image} (hbody : disk.body = .regular image)
    {data : Bytes} (hlim : offset + data.size < positionLimit) :
    (write offset data).Ends disk (fun _ => Became disk (disk.body.written offset data))
      (fun _ _ => False) := by
  have hstop : Word.add offset data.size = .ok (offset + data.size) := Word.add_of_lt_half hlim
  have hwrites : (do moveTo offset; writeAll data : StepM FileDisk Unit).Ends disk
      (fun _ _ => True) (fun _ _ => False) := by
    refine (ends_moveTo_within h hbody (by omega)).bind (fun _ _ h => h) fun _ after hthere =>
      .get_bind (.ite (fun _ => .pure trivial) fun _ => ?_)
    have hposition := hthere.position_eq image hbody
    rw [hthere.body_eq.trans hbody]
    exact .ite (fun hfar => absurd hfar (by omega)) fun _ => .of_run_ok rfl trivial
  refine (ends_write_became h (Word.add_eq_ok_iff.mp hstop).1).of_no_failure ?_
  exact (ends_transfer_within hwrites).bind (fun _ _ h => h) fun _ _ _ =>
    .check_ok_bind hstop (.modify_bind (.modifies trivial))

/-- A device file that is not full takes every write. -/
theorem ends_write_null (hbody : disk.body = .null) {data : Bytes}
    (hlim : offset + data.size < Word.limit) :
    (write offset data).Ends disk (fun _ _ => True) (fun _ _ => False) := by
  have hmoved : (moveTo offset).Ends disk (fun _ after => after.body = .null) (fun _ _ => False) := by
    refine .get_bind (.ite (fun _ => .get_bind ?_) fun _ => .pure hbody)
    rw [hbody]
    exact .modifies hbody
  have hall : (do moveTo offset; writeAll data : StepM FileDisk Unit).Ends disk (fun _ _ => True)
      (fun _ _ => False) := by
    refine hmoved.bind (fun _ _ h => h) fun _ after hafter =>
      .get_bind (.ite (fun _ => .pure trivial) fun _ => ?_)
    rw [hafter]
    exact .modifies trivial
  exact (ends_transfer_within hall).bind (fun _ _ h => h) fun _ _ _ =>
    .check_ok_bind (Word.add_eq_ok_iff.mpr ⟨hlim, rfl⟩) (.modify_bind (.modifies trivial))

/-- A full device file takes none. -/
theorem ends_write_full (hbody : disk.body = .full) {data : Bytes} (hdata : data.isEmpty = false) :
    (write offset data).Ends disk (fun _ _ => False) (fun _ _ => True) := by
  have hmoved : (moveTo offset).Ends disk (fun _ after => after.body = .full) (fun _ _ => True) := by
    refine .get_bind (.ite (fun _ => .get_bind ?_) fun _ => .pure hbody)
    rw [hbody]
    exact .modifies hbody
  have hnone : (do moveTo offset; writeAll data : StepM FileDisk Unit).Ends disk (fun _ _ => False)
      (fun _ _ => True) := by
    refine hmoved.bind (fun _ _ h => h) fun _ after hafter =>
      .get_bind (.ite (fun hempty => ?_) fun _ => ?_)
    · rw [hdata] at hempty
      cases hempty
    · rw [hafter]
      exact .refuse trivial
  have htransfer : (transfer offset (writeAll data)).Ends disk (fun _ _ => False)
      (fun _ _ => True) := by
    refine hnone.attempt.bind (fun _ _ h => h) fun result after hend => ?_
    cases result with
    | ok _ => exact hend.elim
    | error error => exact .modify_bind (.refuse trivial)
  exact htransfer.bind (fun _ _ h => h) fun _ _ h => h.elim

theorem ends_sync_became (h : disk.Steady) (level : SyncLevel) :
    (sync level).Ends disk (fun _ => Became disk disk.body) (fun _ => Became disk disk.body) := by
  refine .get_bind ?_
  cases hbody : disk.body with
  | regular image => exact .pure ⟨rfl, hbody, h⟩
  | null => exact .refuse ⟨rfl, hbody, h⟩
  | full => exact .refuse ⟨rfl, hbody, h⟩

end FileDisk

/-- A file is opened at its end, and its handle remembers that. -/
theorem FileHandle.run_openAt {path : String} {store opened : FileStore} {number : Nat}
    (h : store.openFile path = .ok (number, opened)) :
    let length := (opened.body number).length
    (FileHandle.openAt path).run store = .ok ⟨path, number, length, length, some length⟩ opened := by
  simp only [FileHandle.openAt, EStateM.run_bind, EStateM.run_get, h, EStateM.run_set,
    EStateM.run_pure]

end TwinRegion
