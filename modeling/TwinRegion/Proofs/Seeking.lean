/-
TwinRegion.Proofs.Seeking — the seeks that an open file saves itself.

A file device remembers where its last transfer ended and does not seek
there again. Beside it stands a device that remembers nothing and seeks
before every transfer (`DiskRequest.seeking`). Both meet whatever the system
makes of a call (`Conditions`): it may fail any call, with a part of a write
in the file already, and leave the position of a failed transfer anywhere,
and not at the same place for the two devices.

* What a device remembers is where it is (`Placed`); every call keeps it so
  (`Trial.ends_saving_placed`).
* From states that are equal up to the position and what is remembered of it
  (`Fellows`), the same call goes alike on both devices (`Trial.alike`).
* So no run of calls on an opened file tells the two devices apart
  (`saved_seeks_unseen`).
-/
import TwinRegion.Proofs.Holding
import TwinRegion.Proofs.Refusing

namespace TwinRegion

open StepM

/-! ## Calls and their conditions -/

/-- A call that is made of a disk. -/
inductive DiskRequest where
  | read (offset len : Nat)
  | write (offset : Nat) (data : Bytes)
  | sync (level : SyncLevel)

/-- What the system makes of a call on an open file. -/
structure Conditions where
  /-- The bytes of a write that get into the file before the system fails the call, and the
  reason that it gives. -/
  mishap : Option (Nat × IoError)
  /-- Where a transfer that fails leaves the position, if not where it got to. -/
  stray : Option Nat

namespace Conditions

/-- A transfer whose failure may leave the position anywhere. -/
def straying {α : Type} (conditions : Conditions) (act : StepM FileDisk α) : StepM FileDisk α :=
  match conditions.stray with
  | none => act
  | some position => do
    match ← StepM.attempt act with
    | .ok value => return value
    | .error error =>
      FileDisk.setPosition position
      refuse error

/-- Reads exactly `len` bytes from the position on. A read of nothing is no call of the system. -/
def take (conditions : Conditions) (len : Nat) : StepM FileDisk Bytes :=
  conditions.straying <|
    match conditions.mishap with
    | none => FileDisk.readExact len
    | some (_, cause) => if len = 0 then return #[] else refuse (.io cause)

/-- Writes all of `data` from the position on, or the part of it that comes before a mishap. -/
def put (conditions : Conditions) (data : Bytes) : StepM FileDisk Unit :=
  conditions.straying <|
    match conditions.mishap with
    | none => FileDisk.writeAll data
    | some (done, cause) =>
      if data.isEmpty then return
      else do
        FileDisk.writeAll (data.extract 0 done)
        refuse (.io cause)

/-- A sync is no transfer, and its failure leaves the position alone. -/
def flush (conditions : Conditions) (level : SyncLevel) : StepM FileDisk Unit :=
  match conditions.mishap with
  | none => FileDisk.sync level
  | some (_, cause) => refuse (.io cause)

end Conditions

namespace DiskRequest

/-- Makes the call. A read answers with the bytes read, everything else with none. -/
def perform {δ : Type} [Disk δ] : DiskRequest → StepM δ Bytes
  | .read offset len => Disk.read offset len
  | .write offset data => do
    Disk.write offset data
    return #[]
  | .sync level => do
    Disk.sync level
    return #[]

/-- The call of a file device, which saves itself the seeks that it can. -/
def saving (conditions : Conditions) : DiskRequest → StepM FileDisk Bytes
  | .read offset len => FileDisk.readBy conditions.take offset len
  | .write offset data => do
    FileDisk.writeBy conditions.put offset data
    return #[]
  | .sync level => do
    conditions.flush level
    return #[]

/-- The call of a device that seeks before every transfer. -/
def seeking (conditions : Conditions) : DiskRequest → StepM FileDisk Bytes
  | .read offset len => do
    FileDisk.seek offset
    conditions.take len
  | .write offset data => do
    FileDisk.seek offset
    conditions.put data
    modify fun disk =>
      { disk with
        handle := { disk.handle with length := max disk.handle.length (offset + data.size) } }
    return #[]
  | .sync level => do
    conditions.flush level
    return #[]

/-- Under no special conditions the saving device is the file device as it runs. -/
theorem saving_undisturbed (request : DiskRequest) :
    request.saving ⟨none, none⟩ = request.perform := by
  cases request <;> rfl

/-- The call ends below the limit of a file's positions. -/
def Within : DiskRequest → Prop
  | .read offset len => offset + len < FileDisk.positionLimit
  | .write offset data => offset + data.size < FileDisk.positionLimit
  | .sync _ => True

end DiskRequest

namespace FileDisk

variable {s t : FileDisk} {offset len : Nat} {conditions other : Conditions}

/-! ## Getting there -/

/-- What the handle remembers is where it is. -/
def Placed (disk : FileDisk) : Prop :=
  ∀ offset, disk.handle.remembered = some offset → disk.handle.position = offset

/-- The disk with its position moved. -/
def movedTo (disk : FileDisk) (position : Nat) : FileDisk :=
  { disk with handle := { disk.handle with position := position } }

theorem run_seek (hlim : offset < positionLimit) (disk : FileDisk) :
    (seek offset).run disk = .ok () (disk.movedTo offset) := by
  have hnear : ¬ positionLimit ≤ offset := Nat.not_le.mpr hlim
  cases hbody : disk.body <;> simp [seek, setPosition, movedTo, hbody, hnear]

/-- A seek that is saved would have changed nothing. -/
theorem run_moveTo (h : s.Placed) (hlim : offset < positionLimit) :
    (moveTo offset).run s = .ok () (s.movedTo offset) := by
  by_cases hthere : s.handle.remembered = some offset
  · have hsame : s.movedTo offset = s := by
      rw [movedTo, ← h offset hthere]
    simp [moveTo, hthere, hsame]
  · simp [moveTo, hthere, run_seek hlim]

/-! ## What the system does from there -/

/-- The disk but for its position and what is remembered of it. -/
def still (disk : FileDisk) : FileDisk :=
  { disk with handle := { disk.handle with position := 0, remembered := none } }

/-- The same opening of the same file; its position and what is remembered of it may differ. -/
def Fellows (s t : FileDisk) : Prop := s.still = t.still

theorem Fellows.body_eq (h : s.Fellows t) : s.body = t.body := by
  have hbody := congrArg FileDisk.body (show s.still = t.still from h)
  exact hbody

theorem Fellows.length_eq (h : s.Fellows t) : s.handle.length = t.handle.length := by
  have hlength := congrArg (fun disk => disk.handle.length) (show s.still = t.still from h)
  exact hlength

theorem Fellows.withBody (h : s.Fellows t) (body : FileBody) :
    Fellows { s with body := body } { t with body := body } := by
  have hwith := congrArg (fun disk => { disk with body := body }) (show s.still = t.still from h)
  exact hwith

theorem Fellows.withLength (h : s.Fellows t) (length : Nat) :
    Fellows { s with handle := { s.handle with length := length } }
      { t with handle := { t.handle with length := length } } := by
  have hwith := congrArg (fun disk => { disk with handle := { disk.handle with length := length } })
    (show s.still = t.still from h)
  exact hwith

/-- The same opening of the same file at the same position. -/
structure Level (s t : FileDisk) : Prop where
  fellows : Fellows s t
  position_eq : s.handle.position = t.handle.position

theorem Fellows.level (h : Fellows s t) (position : Nat) :
    Level (s.movedTo position) (t.movedTo position) := ⟨h, rfl⟩

theorem alike_readExact (h : Level s t) (len : Nat) :
    Alike Level (readExact len) s (readExact len) t := by
  refine .get_bind ?_
  rw [h.position_eq, h.fellows.body_eq]
  refine .ite (fun _ => .pure h) fun _ => ?_
  cases t.body with
  | regular image =>
    refine .ite (fun _ => .error rfl rfl h) fun _ => .ite (fun _ => ?_) fun _ => ?_
    · exact .error rfl rfl (h.fellows.level _)
    · exact .ok rfl rfl (h.fellows.level _)
  | null => exact .error rfl rfl h
  | full => exact .ok rfl rfl (h.fellows.level _)

theorem alike_writeAll (h : Level s t) (data : Bytes) :
    Alike Level (writeAll data) s (writeAll data) t := by
  refine .get_bind (.ite (fun _ => .pure h) fun _ => ?_)
  rw [h.position_eq, h.fellows.body_eq]
  cases t.body with
  | regular image =>
    refine .ite (fun _ => .error rfl rfl h) fun _ => .ok rfl rfl ?_
    exact (h.fellows.withBody _).level _
  | null => exact .ok rfl rfl (h.fellows.level _)
  | full => exact .error rfl rfl h

theorem alike_sync (h : Fellows s t) (level : SyncLevel) :
    Alike Fellows (sync level) s (sync level) t := by
  refine .get_bind ?_
  rw [h.body_eq]
  cases t.body with
  | regular image => exact .pure h
  | null | full => exact .check h

/-! ### Strays -/

section strays

variable {α : Type} {act : StepM FileDisk α} {after : FileDisk}

theorem run_straying_ok {a : α} (h : act.run s = .ok a after) :
    (conditions.straying act).run s = .ok a after := by
  unfold Conditions.straying
  split <;> simp [h]

/-- A failure that strays is the same failure, and leaves the same file. -/
theorem run_straying_error (conditions : Conditions) {e : Failure} (h : act.run s = .error e after) :
    ∃ last, (conditions.straying act).run s = .error e last ∧ Fellows last after := by
  unfold Conditions.straying
  split
  · exact ⟨after, h, rfl⟩
  · rename_i position _
    cases e with
    | refused error => exact ⟨after.movedTo position, by simp [h, setPosition, movedTo], rfl⟩
    | fault fault => exact ⟨after, by simp [h], rfl⟩

theorem alike_straying (h : Alike Level act s act t) :
    Alike Fellows (conditions.straying act) s (other.straying act) t := by
  cases h with
  | ok hs ht hend => exact .ok (run_straying_ok hs) (run_straying_ok ht) hend.fellows
  | error hs ht hend =>
    obtain ⟨s', hs', hsfile⟩ := run_straying_error conditions hs
    obtain ⟨t', ht', htfile⟩ := run_straying_error other ht
    exact .error hs' ht' (hsfile.trans (hend.fellows.trans htfile.symm))

theorem ends_straying {onValue : α → FileDisk → Prop}
    (h : act.Ends s onValue fun e _ => e.IsRefusal) :
    (conditions.straying act).Ends s onValue fun e _ => e.IsRefusal := by
  cases hrun : act.run s with
  | ok a after =>
    obtain ⟨hanswer, rfl⟩ := run_eq_ok_iff.mp hrun
    exact .of_run_ok (run_straying_ok hrun) (h.value a hanswer)
  | error e after =>
    obtain ⟨last, hlast, -⟩ := run_straying_error conditions hrun
    exact .of_run_error hlast (h.failure e (run_eq_error_iff.mp hrun).1)

end strays

/-! ### Transfers of the system -/

theorem alike_take (h : Level s t) (hmishap : conditions.mishap = other.mishap) (len : Nat) :
    Alike Fellows (conditions.take len) s (other.take len) t := by
  unfold Conditions.take
  rw [hmishap]
  apply alike_straying
  cases other.mishap with
  | none => exact alike_readExact h len
  | some mishap => exact .ite (fun _ => .pure h) fun _ => .check h

theorem alike_put (h : Level s t) (hmishap : conditions.mishap = other.mishap) (data : Bytes) :
    Alike Fellows (conditions.put data) s (other.put data) t := by
  unfold Conditions.put
  rw [hmishap]
  apply alike_straying
  cases other.mishap with
  | none => exact alike_writeAll h data
  | some mishap =>
    refine .ite (fun _ => .pure h) fun _ => ?_
    exact (alike_writeAll h _).bind fun _ _ _ hend => .check hend

theorem alike_flush (h : Fellows s t) (hmishap : conditions.mishap = other.mishap)
    (level : SyncLevel) :
    Alike Fellows (conditions.flush level) s (other.flush level) t := by
  unfold Conditions.flush
  rw [hmishap]
  cases other.mishap with
  | none => exact alike_sync h level
  | some mishap => exact .check h

/-- A read that succeeds ends where it was to end. -/
theorem ends_take (conditions : Conditions) (disk : FileDisk) (len : Nat) :
    (conditions.take len).Ends disk
      (fun _ after => after.handle.position = disk.handle.position + len)
      (fun e _ => e.IsRefusal) := by
  unfold Conditions.take
  apply ends_straying
  cases conditions.mishap with
  | none =>
    refine .get_bind (.ite (fun hnone => .pure ?_) fun _ => ?_)
    · rw [hnone, Nat.add_zero]
    cases disk.body with
    | regular image =>
      refine .ite (fun _ => .refuse_bind (isRefusal_refused _)) fun _ => ?_
      exact .ite (fun _ => .modify_bind (.refuse_bind (isRefusal_refused _)))
        fun _ => .modify_bind (.pure rfl)
    | null => exact .refuse (isRefusal_refused _)
    | full => exact .modify_bind (.pure rfl)
  | some mishap =>
    refine .ite (fun hnone => .pure ?_) fun _ => .refuse (isRefusal_refused _)
    rw [hnone, Nat.add_zero]

/-- A write that succeeds ends where it was to end. -/
theorem ends_put (conditions : Conditions) (disk : FileDisk) (data : Bytes) :
    (conditions.put data).Ends disk
      (fun _ after => after.handle.position = disk.handle.position + data.size)
      (fun e _ => e.IsRefusal) := by
  have hall : ∀ data : Bytes, (writeAll data).Ends disk
      (fun _ after => after.handle.position = disk.handle.position + data.size)
      (fun e _ => e.IsRefusal) := by
    intro data
    refine .get_bind (.ite (fun hempty => .pure ?_) fun _ => ?_)
    · simp_all [Array.isEmpty]
    cases disk.body with
    | regular image =>
      exact .ite (fun _ => .refuse_bind (isRefusal_refused _)) fun _ => .of_run_ok rfl rfl
    | null => exact .modifies rfl
    | full => exact .refuse (isRefusal_refused _)
  unfold Conditions.put
  apply ends_straying
  cases conditions.mishap with
  | none => exact hall data
  | some mishap =>
    refine .ite (fun hempty => .pure ?_) fun _ => ?_
    · simp_all [Array.isEmpty]
    · exact (hall _).bind (fun _ _ h => h) fun _ _ _ => .refuse (isRefusal_refused _)

/-! ## Transfers of the devices -/

section transfers

variable {α : Type} {act far near : StepM FileDisk α}

/-- Once both devices are at the offset, what one of them remembers does not matter any more. -/
theorem alike_transfer (hplaced : s.Placed) (hlim : offset < positionLimit)
    (hact : Alike Fellows far (s.movedTo offset) near (t.movedTo offset)) :
    Alike Fellows (transfer offset far) s (do seek offset; near) t := by
  have hthere : (do moveTo offset; far).run s = far.run (s.movedTo offset) :=
    run_bind_of_ok (run_moveTo hplaced hlim)
  have hnear : (do seek offset; near).run t = near.run (t.movedTo offset) :=
    run_bind_of_ok (run_seek hlim t)
  cases hact with
  | ok hs ht hend =>
    refine .ok ?_ (hnear.trans ht) hend
    rw [transfer, EStateM.run_bind, run_attempt, hthere, hs]
    rfl
  | @error e s' t' hs ht hend =>
    cases e with
    | refused error =>
      have hforgotten : (transfer offset far).run s = .error (.refused error)
          { s' with handle := { s'.handle with remembered := none } } := by
        rw [transfer, EStateM.run_bind, run_attempt, hthere, hs]
        rfl
      exact .error hforgotten (hnear.trans ht) hend
    | fault fault =>
      refine .error ?_ (hnear.trans ht) hend
      rw [transfer, EStateM.run_bind, run_attempt, hthere, hs]

/-- A transfer ends where it was to end, or nothing is remembered of it. -/
theorem ends_transfer_placed (hplaced : s.Placed) (hlim : offset < positionLimit)
    (hact : act.Ends (s.movedTo offset) (fun _ after => after.handle.position = offset + len)
      (fun e _ => e.IsRefusal)) :
    (transfer offset act).Ends s (fun _ after => after.handle.position = offset + len)
      (fun _ => Placed) := by
  have hmoved : (do moveTo offset; act).Ends s
      (fun _ after => after.handle.position = offset + len) (fun e _ => e.IsRefusal) :=
    hact.of_run_eq (run_bind_of_ok (run_moveTo hplaced hlim))
  refine (hmoved.attempt_of_refused fun _ _ h => h).bind (fun _ _ h => h.elim) ?_
  intro result after hend
  cases result with
  | ok a => exact .pure hend
  | error error =>
    refine .modify_bind (.refuse fun _ hnone => ?_)
    cases hnone

end transfers

theorem ends_readBy_placed (hplaced : s.Placed) (hlim : offset + len < positionLimit) :
    (readBy conditions.take offset len).Ends s (fun _ => Placed) (fun _ => Placed) := by
  have hoffset : offset < positionLimit := Nat.lt_of_le_of_lt (Nat.le_add_right ..) hlim
  refine (ends_transfer_placed hplaced hoffset (ends_take conditions _ len)).bind
    (fun _ _ h => h) fun bytes after hend => ?_
  refine .check_ok_bind (Word.add_of_lt_half hlim) (.modify_bind (.pure fun _ hthere => ?_))
  exact hend.trans (Option.some.inj hthere)

theorem ends_writeBy_placed (hplaced : s.Placed) {data : Bytes}
    (hlim : offset + data.size < positionLimit) :
    (writeBy conditions.put offset data).Ends s (fun _ => Placed) (fun _ => Placed) := by
  have hoffset : offset < positionLimit := Nat.lt_of_le_of_lt (Nat.le_add_right ..) hlim
  refine (ends_transfer_placed hplaced hoffset (ends_put conditions _ data)).bind
    (fun _ _ h => h) fun _ after hend => ?_
  refine .check_ok_bind (Word.add_of_lt_half hlim) (.modify_bind (.modifies fun _ hthere => ?_))
  exact hend.trans (Option.some.inj hthere)

theorem alike_readBy (h : Fellows s t) (hplaced : s.Placed) (hlim : offset + len < positionLimit)
    (hmishap : conditions.mishap = other.mishap) :
    Alike Fellows (readBy conditions.take offset len) s (do seek offset; other.take len) t := by
  have hthere := alike_transfer hplaced (Nat.lt_of_le_of_lt (Nat.le_add_right ..) hlim)
    (alike_take (h.level offset) hmishap len)
  have hstop : Word.add offset len = .ok (offset + len) := Word.add_of_lt_half hlim
  have hboth : Alike Fellows (readBy conditions.take offset len) s
      ((do seek offset; other.take len) >>= pure) t := by
    refine hthere.bind fun bytes s t hend => ?_
    exact .ok ((run_check_bind hstop).trans rfl) rfl hend
  rwa [bind_pure] at hboth

/-- The length that a device knows is kept in step too. -/
theorem alike_writeBy (h : Fellows s t) (hplaced : s.Placed) {data : Bytes}
    (hlim : offset + data.size < positionLimit) (hmishap : conditions.mishap = other.mishap) :
    Alike Fellows (writeBy conditions.put offset data) s
      (do
        seek offset
        other.put data
        modify fun disk =>
          { disk with
            handle := { disk.handle with length := max disk.handle.length (offset + data.size) } }) t := by
  have hthere := alike_transfer hplaced (Nat.lt_of_le_of_lt (Nat.le_add_right ..) hlim)
    (alike_put (h.level offset) hmishap data)
  have hstop : Word.add offset data.size = .ok (offset + data.size) := Word.add_of_lt_half hlim
  rw [← bind_assoc]
  refine hthere.bind fun _ s t hend => ?_
  refine .ok ((run_check_bind hstop).trans rfl) rfl ?_
  dsimp only
  rw [hend.length_eq]
  exact hend.withLength _

end FileDisk

/-! ## Runs -/

/-- The state after a run of steps, each of which is taken whatever became of the ones before. -/
def StepM.afterAll {σ α ι : Type} (step : ι → StepM σ α) (s : σ) (run : List ι) : σ :=
  run.foldl (fun s i => (step i).reached s) s

/-- A call that both devices make. The system fails it for both or for neither, and may leave
their positions in different places. -/
structure Trial where
  request : DiskRequest
  mishap : Option (Nat × IoError)
  savingStray : Option Nat
  seekingStray : Option Nat

namespace Trial

open FileDisk

def saving (trial : Trial) : StepM FileDisk Bytes :=
  trial.request.saving ⟨trial.mishap, trial.savingStray⟩

def seeking (trial : Trial) : StepM FileDisk Bytes :=
  trial.request.seeking ⟨trial.mishap, trial.seekingStray⟩

variable {s t : FileDisk}

theorem ends_saving_placed (trial : Trial) (hplaced : s.Placed) (hwithin : trial.request.Within) :
    trial.saving.Ends s (fun _ => Placed) (fun _ => Placed) := by
  obtain ⟨request, mishap, savingStray, seekingStray⟩ := trial
  cases request with
  | read offset len => exact ends_readBy_placed hplaced hwithin
  | write offset data =>
    exact (ends_writeBy_placed hplaced hwithin).bind (fun _ _ h => h) fun _ _ h => .pure h
  | sync level =>
    have hflush : (Conditions.flush ⟨mishap, savingStray⟩ level).Ends s
        (fun _ => Placed) (fun _ => Placed) := by
      cases mishap with
      | none =>
        refine .get_bind ?_
        split
        · exact .pure hplaced
        · exact .refuse hplaced
        · exact .refuse hplaced
      | some mishap => exact .refuse hplaced
    exact hflush.bind (fun _ _ h => h) fun _ _ h => .pure h

/-- One call goes alike on both devices. -/
theorem alike (trial : Trial) (h : Fellows s t) (hplaced : s.Placed) (hwithin : trial.request.Within) :
    StepM.Alike Fellows trial.saving s trial.seeking t := by
  obtain ⟨request, mishap, savingStray, seekingStray⟩ := trial
  cases request with
  | read offset len => exact alike_readBy h hplaced hwithin rfl
  | write offset data =>
    have hwrite := (@alike_writeBy s t offset ⟨mishap, savingStray⟩ ⟨mishap, seekingStray⟩ h hplaced
      data hwithin rfl).bind fun _ _ _ hend => Alike.pure (a := (#[] : Bytes)) hend
    simpa only [saving, seeking, DiskRequest.saving, DiskRequest.seeking, bind_assoc] using hwrite
  | sync level => exact (alike_flush h rfl level).bind fun _ _ _ hend => .pure hend

/-- The devices stay fellows along a run, and what the saving one remembers stays true. -/
theorem fellows_afterAll (h : Fellows s t) (hplaced : s.Placed) {trials : List Trial}
    (hwithin : ∀ trial ∈ trials, trial.request.Within) :
    Fellows (afterAll saving s trials) (afterAll seeking t trials) ∧
      (afterAll saving s trials).Placed := by
  induction trials generalizing s t with
  | nil => exact ⟨h, hplaced⟩
  | cons trial rest ih =>
    have hfirst := hwithin trial List.mem_cons_self
    have hrest : ∀ trial ∈ rest, trial.request.Within :=
      fun trial htrial => hwithin trial (List.mem_cons_of_mem _ htrial)
    exact ih (trial.alike h hplaced hfirst).reached_rel
      (trial.ends_saving_placed hplaced hfirst).reached hrest

end Trial

theorem FileDisk.placed_of_openAt {path : String} {store opened : FileStore} {handle : FileHandle}
    (hopen : (FileHandle.openAt path).run store = .ok handle opened) (body : FileBody) :
    Placed ⟨handle, body⟩ := by
  intro offset hoffset
  obtain ⟨hanswer, -⟩ := run_eq_ok_iff.mp hopen
  have hthere := ((FileHandle.ends_openAt path store).value handle hanswer).1
  exact Option.some.inj (hthere.symm.trans hoffset)

/-- Whatever was called before on a file that was opened, and whatever came of it: the next call
has the same answer and leaves the same file on the device that saves itself seeks as on the device
that seeks before every transfer. -/
theorem saved_seeks_unseen {path : String} {store opened : FileStore} {handle : FileHandle}
    (hopen : (FileHandle.openAt path).run store = .ok handle opened) {before : List Trial}
    {trial : Trial} (hwithin : ∀ called ∈ trial :: before, called.request.Within) :
    let disk : FileDisk := ⟨handle, opened.body handle.number⟩
    let saving := afterAll Trial.saving disk before
    let seeking := afterAll Trial.seeking disk before
    trial.saving.answer saving = trial.seeking.answer seeking ∧
      (trial.saving.reached saving).body = (trial.seeking.reached seeking).body ∧
      Disk.length (trial.saving.reached saving) = Disk.length (trial.seeking.reached seeking) := by
  intro disk saving seeking
  have hplaced : disk.Placed := FileDisk.placed_of_openAt hopen _
  have hbefore : ∀ called ∈ before, called.request.Within :=
    fun called hcalled => hwithin called (List.mem_cons_of_mem _ hcalled)
  obtain ⟨hfellows, hkept⟩ := Trial.fellows_afterAll (rfl : disk.Fellows disk) hplaced hbefore
  have halike := trial.alike hfellows hkept (hwithin trial List.mem_cons_self)
  exact ⟨halike.answer_eq, halike.reached_rel.body_eq, halike.reached_rel.length_eq⟩

/-- A write that stops after one byte, with the two positions in different places, goes unseen by
the write that is made next where it should have ended. -/
theorem torn_write_unseen : ∃ handle opened,
    (FileHandle.openAt "a").run .initial = .ok handle opened ∧
      let torn : Trial := ⟨.write 0 #[1, 2], some (1, .os .noSpace), some 7, none⟩
      let next : Trial := ⟨.write 2 #[3], none, none, none⟩
      let disk : FileDisk := ⟨handle, opened.body handle.number⟩
      (next.saving.reached (afterAll Trial.saving disk [torn])).body =
        (next.seeking.reached (afterAll Trial.seeking disk [torn])).body := by
  have hopens : (FileStore.initial.openFile "a").isOk = true := by decide +kernel
  cases hopen : FileStore.initial.openFile "a" with
  | error cause =>
    rw [hopen] at hopens
    cases hopens
  | ok file =>
    have hrun := FileHandle.run_openAt hopen
    refine ⟨_, _, hrun, ?_⟩
    have hwithin : ∀ called ∈ [(⟨.write 2 #[3], none, none, none⟩ : Trial),
        ⟨.write 0 #[1, 2], some (1, .os .noSpace), some 7, none⟩], called.request.Within := by
      simp only [List.forall_mem_cons, List.not_mem_nil, false_imp_iff, implies_true, and_true]
      exact ⟨(by decide : 2 + 1 < FileDisk.positionLimit), (by decide : 0 + 2 < FileDisk.positionLimit)⟩
    exact (saved_seeks_unseen hrun hwithin).2.1

end TwinRegion
