/-
TwinRegion.Proofs.Numbering — which number a file has does not matter.

A file is made with a number that depends on how many were made before it,
so one opening of it can go by different numbers in two worlds. Nothing
that is done by the opening looks at the number: from openings that differ
in nothing else (`FileDisk.Renumbered`) every call goes alike, and keeps the
numbers. Nor does it matter what other files are there, as long as the way
to the file is (`FileStore.Leads`).
-/
import TwinRegion.Proofs.Uniform
import TwinRegion.Disk.File

namespace TwinRegion

open StepM

/-! ## Handles -/

/-- The handle but for the number of its file. -/
def FileHandle.unnumbered (handle : FileHandle) : FileHandle := { handle with number := 0 }

namespace FileDisk

/-- The same opening of the same contents, by these numbers. -/
structure Renumbered (number number' : Nat) (far near : FileDisk) : Prop where
  far_number : far.handle.number = number
  near_number : near.handle.number = number'
  handle_eq : far.handle.unnumbered = near.handle.unnumbered
  body_eq : far.body = near.body

variable {number number' : Nat} {far near : FileDisk}

namespace Renumbered

theorem position_eq (h : Renumbered number number' far near) :
    far.handle.position = near.handle.position := by
  have hposition := congrArg FileHandle.position h.handle_eq
  exact hposition

theorem length_eq (h : Renumbered number number' far near) :
    far.handle.length = near.handle.length := by
  have hlength := congrArg FileHandle.length h.handle_eq
  exact hlength

theorem remembered_eq (h : Renumbered number number' far near) :
    far.handle.remembered = near.handle.remembered := by
  have hremembered := congrArg FileHandle.remembered h.handle_eq
  exact hremembered

/-- A change of the handle that has nothing to do with the number. -/
theorem withHandle (h : Renumbered number number' far near) {change : FileHandle → FileHandle}
    (hnumber : ∀ handle, (change handle).number = handle.number)
    (hchange : ∀ handle, (change handle).unnumbered = (change handle.unnumbered).unnumbered) :
    Renumbered number number' { far with handle := change far.handle }
      { near with handle := change near.handle } where
  far_number := (hnumber _).trans h.far_number
  near_number := (hnumber _).trans h.near_number
  handle_eq := by rw [hchange, hchange near.handle, h.handle_eq]
  body_eq := h.body_eq

theorem withBody (h : Renumbered number number' far near) (body : FileBody) :
    Renumbered number number' { far with body := body } { near with body := body } :=
  ⟨h.far_number, h.near_number, h.handle_eq, rfl⟩

theorem withPosition (h : Renumbered number number' far near) (position : Nat) :
    Renumbered number number' { far with handle := { far.handle with position := position } }
      { near with handle := { near.handle with position := position } } :=
  @withHandle _ _ far near h (fun handle => { handle with position := position }) (fun _ => rfl)
    fun _ => rfl

end Renumbered

/-! ## Calls -/

theorem alike_setPosition_renumbered (h : Renumbered number number' far near) (position : Nat) :
    Alike (Renumbered number number') (setPosition position) far (setPosition position) near :=
  .ok rfl rfl (h.withPosition position)

theorem alike_remember_renumbered (h : Renumbered number number' far near) (offset : Option Nat) :
    Alike (Renumbered number number') (remember offset) far (remember offset) near :=
  .ok rfl rfl <| @Renumbered.withHandle _ _ far near h
    (fun handle => { handle with remembered := offset }) (fun _ => rfl) fun _ => rfl

theorem alike_moveTo_renumbered (h : Renumbered number number' far near) (offset : Nat) :
    Alike (Renumbered number number') (moveTo offset) far (moveTo offset) near := by
  refine .get_bind ?_
  rw [h.remembered_eq]
  refine .ite (fun _ => .get_bind ?_) fun _ => .pure h
  rw [h.body_eq]
  cases near.body with
  | regular image =>
    refine .ite (fun _ => .error rfl rfl h) fun _ => ?_
    exact alike_setPosition_renumbered h offset
  | null | full => exact alike_setPosition_renumbered h offset

theorem alike_readExact_renumbered (h : Renumbered number number' far near) (len : Nat) :
    Alike (Renumbered number number') (readExact len) far (readExact len) near := by
  refine .get_bind ?_
  rw [h.position_eq, h.body_eq]
  refine .ite (fun _ => .pure h) fun _ => ?_
  cases near.body with
  | regular image =>
    refine .ite (fun _ => .error rfl rfl h) fun _ => .ite (fun _ => ?_) fun _ => ?_
    · exact .error rfl rfl (h.withPosition _)
    · exact .ok rfl rfl (h.withPosition _)
  | null => exact .error rfl rfl h
  | full => exact .ok rfl rfl (h.withPosition _)

theorem alike_writeAll_renumbered (h : Renumbered number number' far near) (data : Bytes) :
    Alike (Renumbered number number') (writeAll data) far (writeAll data) near := by
  refine .get_bind (.ite (fun _ => .pure h) fun _ => ?_)
  rw [h.position_eq, h.body_eq]
  cases near.body with
  | regular image =>
    refine .ite (fun _ => .error rfl rfl h) fun _ => .ok rfl rfl ?_
    exact (h.withBody _).withPosition _
  | null => exact .ok rfl rfl (h.withPosition _)
  | full => exact .error rfl rfl h

theorem alike_transfer_renumbered {α : Type} (h : Renumbered number number' far near) (offset : Nat)
    {act : StepM FileDisk α}
    (hact : ∀ {far near : FileDisk}, Renumbered number number' far near →
      Alike (Renumbered number number') act far act near) :
    Alike (Renumbered number number') (transfer offset act) far (transfer offset act) near := by
  have hmoved : Alike (Renumbered number number') (do moveTo offset; act : StepM FileDisk α) far
      (do moveTo offset; act : StepM FileDisk α) near :=
    (alike_moveTo_renumbered h offset).bind fun _ _ _ h => hact h
  refine hmoved.attempt.bind fun result far near h => ?_
  cases result with
  | ok a => exact .pure h
  | error error => exact (alike_remember_renumbered h none).bind fun _ _ _ h => .check h

theorem alike_read_renumbered (h : Renumbered number number' far near) (offset len : Nat) :
    Alike (Renumbered number number') (read offset len) far (read offset len) near := by
  refine (alike_transfer_renumbered h offset fun h => alike_readExact_renumbered h len).bind
    fun bytes far near h => ?_
  refine .check_bind h fun stop => ?_
  exact (alike_remember_renumbered h (some stop)).bind fun _ _ _ h => .pure h

theorem alike_write_renumbered (h : Renumbered number number' far near) (offset : Nat)
    (data : Bytes) :
    Alike (Renumbered number number') (write offset data) far (write offset data) near := by
  refine (alike_transfer_renumbered h offset fun h => alike_writeAll_renumbered h data).bind
    fun _ far near h => ?_
  refine .check_bind h fun stop => ?_
  refine (alike_remember_renumbered h (some stop)).bind fun _ far near h => .ok rfl rfl ?_
  exact @Renumbered.withHandle _ _ far near h
    (fun handle => { handle with length := max handle.length stop }) (fun _ => rfl) fun _ => rfl

theorem alike_sync_renumbered (h : Renumbered number number' far near) (level : SyncLevel) :
    Alike (Renumbered number number') (sync level) far (sync level) near := by
  refine .get_bind ?_
  rw [h.body_eq]
  cases near.body with
  | regular image => exact .pure h
  | null | full => exact .check h

/-- The calls of an opening do not depend on the number of its file. -/
theorem matches_renumbered (number number' : Nat) : Disk.Matches (Renumbered number number') where
  ready h := .pure h
  length h := h.length_eq
  read h offset len := alike_read_renumbered h offset len
  write h offset data := alike_write_renumbered h offset data
  sync h level := alike_sync_renumbered h level

end FileDisk

/-! ## Paths -/

namespace FileStore

variable {store other : FileStore} {path : Path} {place : Place} {number : Nat}

/-- A way through directories is there wherever the directories are. -/
theorem follow_of_directories {names : List FileName} {start : Place}
    (hdirectories : ∀ place number, store.entryAt place = some (.directory number) →
      other.entryAt place = some (.directory number))
    (h : store.follow start names = .ok place) : other.follow start names = .ok place := by
  induction names generalizing start with
  | nil => exact h
  | cons name rest ih =>
    rw [follow] at h ⊢
    cases hentry : store.entryAt start with
    | none => simp [hentry] at h
    | some entry =>
      cases entry with
      | file number => simp [hentry] at h
      | directory number =>
        simp only [hentry] at h
        simp only [hdirectories start number hentry]
        by_cases hhere : name = Path.here
        · rw [if_pos hhere] at h ⊢
          exact ih h
        rw [if_neg hhere] at h ⊢
        by_cases hup : name = Path.up
        · rw [if_pos hup] at h ⊢
          exact ih h
        rw [if_neg hup] at h ⊢
        by_cases hlong : maxNameSize < name.length
        · rw [if_pos hlong] at h
          cases h
        · rw [if_neg hlong] at h ⊢
          exact ih h

/-- The path leads to this place, whatever is there. -/
structure Leads (store : FileStore) (path : Path) (place : Place) : Prop where
  check : checkPath path = .ok ()
  not_slash : path.endsInSlash = false
  follow : store.follow (startOf path) path.names = .ok place

theorem Leads.of_directories
    (hdirectories : ∀ place number, store.entryAt place = some (.directory number) →
      other.entryAt place = some (.directory number))
    (h : store.Leads path place) : other.Leads path place :=
  ⟨h.check, h.not_slash, follow_of_directories hdirectories h.follow⟩

theorem Leads.openFile_eq (h : store.Leads path place) :
    store.openFile path =
      match store.entryAt place with
      | some (.directory _) => .error (.os .isDirectory)
      | some (.file number) => .ok (number, store)
      | none => .ok (store.create place (.regular .empty)) := by
  simp only [openFile, h.check, h.not_slash, h.follow, bind, Except.bind, Bool.false_eq_true,
    if_false]
  cases store.entryAt place with
  | none => rfl
  | some entry => cases entry <;> rfl

/-- Where a path leads if a file that is there is opened by it. -/
theorem leads_of_openFile (h : store.openFile path = .ok (number, store)) :
    ∃ place, store.Leads path place ∧ store.entryAt place = some (.file number) := by
  unfold openFile at h
  cases hcheck : checkPath path with
  | error cause =>
    rw [hcheck] at h
    cases h
  | ok _ =>
    rw [hcheck] at h
    by_cases hslash : path.endsInSlash
    · simp only [hslash, if_true, bind, Except.bind] at h
      generalize store.follow _ _ = led at h
      cases led <;> cases h
    · rw [Bool.not_eq_true] at hslash
      simp only [hslash, Bool.false_eq_true, if_false, bind, Except.bind, pure, Except.pure] at h
      cases hfollow : store.follow (startOf path) path.names with
      | error errno =>
        rw [hfollow] at h
        cases h
      | ok place =>
        simp only [hfollow] at h
        refine ⟨place, ⟨hcheck, hslash, hfollow⟩, ?_⟩
        cases hentry : store.entryAt place with
        | none =>
          -- a file that was made has a number that was free before
          rw [hentry] at h
          have hnext := congrArg nextNumber (Prod.ext_iff.mp (Except.ok.inj h)).2
          simp [create, createUnnamed] at hnext
        | some entry =>
          cases entry with
          | directory _ =>
            rw [hentry] at h
            cases h
          | file found =>
            rw [hentry] at h
            cases h
            rfl

end FileStore

end TwinRegion
