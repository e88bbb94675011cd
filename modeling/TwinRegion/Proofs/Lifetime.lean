/-
TwinRegion.Proofs.Lifetime — every device is closed once.

What is done in a session can be done in an overheard world as well
(`Deed.overheard`). The file system does there what it does in the plain
world (`plain_run`), and the calls that each device receives are on record
under the number that it was given out with.

A request calls the device of one record at most and does not close it
(`asking_cases`). Any other deed is silent, or it closes the device of one
record, which is gone from the record then, or it enters a new device with a
record, or it turns a new device away and closes it (`Hearing`). From these
alone follows what holds in every state (`Attended`): a device that some
record has was not closed, and any other one that was ever given out was
closed once and not called again.
-/
import TwinRegion.Proofs.Session
import TwinRegion.Proofs.Unheard

namespace TwinRegion

open StepM Vfs

/-- The same deed, with the device that it opens listened to. -/
def Deed.overheard : Deed → Deed Tagged Overheard
  | .opening path region openDevice =>
    .opening path region fun name => Overheard.give (openDevice name)
  | .asking request => .asking request
  | .closing number => .closing number
  | .meanwhile change => .meanwhile (Around.change change)

namespace Session

/-! ## Listening -/

/-- The session without the numbers of the devices and the lists of their calls. -/
def plain (s : Session Tagged Overheard) : Session := ⟨s.vfs.plain, s.grants⟩

/-- The session with everyone listening from now on: the device of a record goes under the
record's number. -/
def overheard (s : Session) : Session Tagged Overheard where
  vfs :=
    { registry :=
        { records := s.vfs.registry.records.mapIdx fun id record =>
            ⟨record.name, record.device.map (⟨id, ·⟩), record.partition, record.refs⟩
          names := s.vfs.registry.names }
      world := ⟨s.vfs.world, s.vfs.registry.records.size, fun _ => []⟩ }
  grants := s.grants

/-- The number of the device of a record. -/
def number? (s : Session Tagged Overheard) (id : BlobId) : Option Nat :=
  (s.vfs.registry.record? id).bind fun record => record.device.map Tagged.number

/-- How many devices were given out. -/
def given (s : Session Tagged Overheard) : Nat := s.vfs.world.given

/-- The calls that a device received, newest first. -/
def heard (s : Session Tagged Overheard) (number : Nat) : List DiskCall := s.vfs.world.heard number

theorem plain_overheard (s : Session) : s.overheard.plain = s := by
  have hrecords : (s.overheard.vfs.registry.records).map BlobRecord.plain =
      s.vfs.registry.records := by
    apply Array.ext_getElem?
    intro id
    simp only [overheard, Array.getElem?_map, Array.getElem?_mapIdx, Option.map_map]
    rcases s.vfs.registry.records[id]? with _ | ⟨name, _ | device, partition, refs⟩ <;> rfl
  rw [plain, Vfs.plain, Registry.plain, hrecords]
  rfl

/-- A deed does the same to the file system whether anyone listens or not. -/
theorem plain_after (s : Session Tagged Overheard) (deed : Deed) :
    (s.after deed.overheard).plain = s.plain.after deed := by
  cases deed with
  | opening path region openDevice =>
    simp only [Deed.overheard, after]
    cases alike_openVia_plain path region openDevice (rfl : Unheard s.vfs s.vfs.plain) with
    | ok hfar hnear h =>
      obtain rfl := h
      rw [hfar, show s.plain.vfs = s.vfs.plain from rfl, hnear]
      rfl
    | error hfar hnear h =>
      obtain rfl := h
      rw [hfar, show s.plain.vfs = s.vfs.plain from rfl, hnear]
      rfl
  | asking request =>
    have hreached := (alike_perform_plain request (rfl : Unheard s.vfs s.vfs.plain)).reached_rel
    exact congrArg (Session.mk · s.grants) hreached
  | closing number =>
    simp only [Deed.overheard, after, plain]
    split
    · rename_i name handle hgrant
      rw [reached_close_plain]
    · rfl
  | meanwhile change => rfl

theorem plain_run (s : Session Tagged Overheard) (deeds : List Deed) :
    (s.run (deeds.map Deed.overheard)).plain = s.plain.run deeds := by
  induction deeds generalizing s with
  | nil => rfl
  | cons deed rest ih =>
    rw [List.map_cons, run, List.foldl_cons, ← run, ih, plain_after]
    rfl

/-- A record has a number exactly while it has a device. -/
theorem isSome_number?_eq (s : Session Tagged Overheard) (id : BlobId) :
    (s.number? id).isSome =
      ((s.plain.vfs.registry.record? id).bind BlobRecord.device).isSome := by
  have hrecord : s.plain.vfs.registry.record? id =
      (s.vfs.registry.record? id).map BlobRecord.plain := Registry.record?_plain _ id
  rw [hrecord, number?]
  cases s.vfs.registry.record? id <;> simp [BlobRecord.plain]

/-! ## What a deed does to the devices -/

variable {s s' : Session Tagged Overheard} {id : BlobId} {record : BlobRecord Tagged}

theorem number?_of_record (hrecord : s.vfs.registry.record? id = some record) :
    s.number? id = (attached record s.vfs).number? := by
  rw [number?, hrecord]
  rfl

/-- What an opening or a closing does to the devices. -/
inductive Hearing (s s' : Session Tagged Overheard) : Prop where
  | silent (hnumbers : s'.number? = s.number?) (hgiven : s'.given = s.given)
      (hheard : s'.heard = s.heard)
  | closed (id : BlobId) (hnumbers : s'.number? = Function.update s.number? id none)
      (hgiven : s'.given = s.given)
      (hheard : s'.heard = (s.vfs.world.tell (s.number? id) [.close]).heard)
  | entered (id : BlobId) (calls : List DiskCall) (hclose : .close ∉ calls)
      (hnew : s.number? id = none)
      (hnumbers : s'.number? = Function.update s.number? id (some s.given))
      (hgiven : s'.given = s.given + 1)
      (hheard : s'.heard = (s.vfs.world.tell (some s.given) calls).heard)
  | dismissed (calls : List DiskCall) (hclose : .close ∉ calls) (hnumbers : s'.number? = s.number?)
      (hgiven : s'.given = s.given + 1)
      (hheard : s'.heard = (s.vfs.world.tell (some s.given) (.close :: calls)).heard)

/-- A change of one record that leaves its device alone. -/
theorem number?_modifyRecord {f : BlobRecord Tagged → BlobRecord Tagged} {world : Overheard}
    {grants : List Grant} (hf : ∀ record, s.vfs.registry.record? id = some record →
      (f record).device.map Tagged.number = record.device.map Tagged.number) :
    (⟨⟨s.vfs.registry.modifyRecord id f, world⟩, grants⟩ : Session Tagged Overheard).number? =
      s.number? := by
  funext other
  unfold number?
  by_cases hid : id = other
  · subst hid
    rw [record?_modifyRecord]
    cases hrecord : s.vfs.registry.record? id with
    | none => rfl
    | some record => exact hf record hrecord
  · rw [record?_modifyRecord_of_ne _ hid]

/-- A record that loses its device has no number from then on. -/
theorem number?_detached {f : BlobRecord Tagged → BlobRecord Tagged}
    (hf : ∀ record, (f record).device = none) {names : Std.ExtTreeMap String BlobId}
    {world : Overheard} {grants : List Grant} :
    (⟨⟨⟨(s.vfs.registry.modifyRecord id f).records, names⟩, world⟩, grants⟩ :
      Session Tagged Overheard).number? = Function.update s.number? id none := by
  funext other
  show ((s.vfs.registry.modifyRecord id f).record? other).bind _ = _
  by_cases hid : id = other
  · subst hid
    rw [Function.update_self, record?_modifyRecord]
    cases s.vfs.registry.record? id with
    | none => rfl
    | some record => exact congrArg (Option.map Tagged.number) (hf record)
  · rw [Function.update_of_ne (Ne.symm hid), record?_modifyRecord_of_ne _ hid, number?]

/-- A record that is entered has the number of its device. -/
theorem number?_enter {name : String} {world : Overheard} {grants : List Grant} :
    (⟨⟨(s.vfs.registry.enter name record).2, world⟩, grants⟩ : Session Tagged Overheard).number? =
      Function.update s.number? s.vfs.registry.records.size (record.device.map Tagged.number) := by
  funext other
  rw [number?]
  dsimp only
  by_cases hid : other = s.vfs.registry.records.size
  · subst hid
    rw [Function.update_self, record?_enter, if_pos rfl, Option.bind_some]
  · rw [Function.update_of_ne hid, record?_enter, if_neg hid, number?]

/-- A request that is about no record calls no device. -/
theorem world_untargeted {request : Request} {vfs : Vfs Tagged Overheard}
    (htarget : request.target vfs.registry = none) :
    (request.perform.reached vfs).world.given = vfs.world.given ∧
      (request.perform.reached vfs).world.heard = vfs.world.heard := by
  cases request with
  | remove path =>
    rw [Request.perform, reached_bind_pure,
      (run_eq_ok_iff.mp (Request.run_remove_untargeted htarget)).2]
    exact ⟨rfl, rfl⟩
  | setFaults medium faults =>
    rw [Request.perform, reached_bind_pure, reached_modify]
    exact ⟨rfl, rfl⟩
  | _ => cases htarget

/-- A request closes no device. -/
theorem hears_onDevice (request : Request) (partition : Partition)
    (a : Attached Tagged Overheard) : a.Hears ((request.onDevice partition).reached a) :=
  (Request.alike_onDevice (Attached.keeps_hears a).matches_self request partition
    ⟨rfl, .refl a⟩).reached_rel.2

/-- The device of a record keeps its number through a request. -/
theorem number?_settle (request : Request) (partition : Partition)
    (hrecord : s.vfs.registry.record? id = some record) :
    ({ s with
        vfs := settle id partition
          ((request.onDevice record.partition).reached (attached record s.vfs)) s.vfs } :
      Session Tagged Overheard).number? = s.number? := by
  refine number?_modifyRecord fun found hfound => ?_
  cases hrecord.symm.trans hfound
  exact (hears_onDevice request record.partition (attached record s.vfs)).number_eq

/-- A request is about a record that there is, or changes no record and is heard nowhere. -/
theorem asking_cases (s : Session Tagged Overheard) (request : Request) :
    ((s.after (.asking request)).number? = s.number? ∧
      (s.after (.asking request)).given = s.given ∧
      (s.after (.asking request)).heard = s.heard) ∨
    ∃ id record partition, request.target s.vfs.registry = some id ∧
      s.vfs.registry.record? id = some record ∧
      s.after (.asking request) =
        { s with
          vfs := settle id partition
            ((request.onDevice record.partition : StepM (Attached Tagged Overheard) Unit).reached
              (attached record s.vfs)) s.vfs } := by
  cases htarget : request.target s.vfs.registry with
  | none =>
    obtain ⟨hgiven, hheard⟩ := world_untargeted htarget
    refine .inl ⟨?_, hgiven, hheard⟩
    funext id
    rw [number?, after, Request.registry_of_untargeted htarget, number?]
  | some id =>
    cases hrecord : s.vfs.registry.record? id with
    | none =>
      rw [after_asking_absent htarget hrecord]
      exact .inl ⟨rfl, rfl, rfl⟩
    | some record =>
      obtain ⟨partition, -, hafter⟩ := after_asking htarget hrecord
      exact .inr ⟨id, record, partition, rfl, hrecord, hafter⟩

theorem hearing_closing (s : Session Tagged Overheard) (number : Nat) :
    Hearing s (s.after (.closing number)) := by
  by_cases hout : ∃ name handle, s.grants[number]? = some ⟨name, handle, false⟩
  · obtain ⟨name, handle, hgrant⟩ := hout
    simp only [after, hgrant]
    cases hrecord : s.vfs.registry.record? handle.blob with
    | none =>
      rw [close_reached_absent hrecord]
      exact .silent rfl rfl rfl
    | some record =>
      rw [close_reached hrecord]
      by_cases hlast : record.refs - 1 = 0
      · obtain ⟨hheard, hgiven⟩ := Attached.heard_close (attached record s.vfs)
        rw [if_pos hlast]
        refine .closed handle.blob (number?_detached fun _ => rfl) hgiven ?_
        rw [number?_of_record hrecord]
        exact hheard
      · rw [if_neg hlast]
        exact .silent (number?_modifyRecord fun _ _ => rfl) rfl rfl
  · rw [after_closing_out fun name handle h => hout ⟨name, handle, h⟩]
    exact .silent rfl rfl rfl

theorem hearing_opening (s : Session Tagged Overheard) (path : String) (region : Region)
    (openDevice : String → StepM World Device) :
    Hearing s (s.after (Deed.opening path region openDevice).overheard) := by
  rw [Deed.overheard]
  cases hname : s.vfs.registry.lookup? (blobName path region) with
  | some id =>
    rw [after_opening_known hname]
    exact .silent (number?_modifyRecord fun _ _ => rfl) rfl rfl
  | none =>
    cases region with
    | journal =>
      rw [after_opening_alone hname]
      exact .silent rfl rfl rfl
    | database =>
      have hrun := @openVia_new _ _ path _ s.vfs (fun name => Overheard.give (openDevice name)) hname
      rw [Overheard.run_give] at hrun
      cases hdevice : (openDevice path).run s.vfs.world.world with
      | error e world =>
        rw [hdevice] at hrun
        simp only [after, hrun]
        exact .silent rfl rfl rfl
      | ok device world =>
        rw [hdevice] at hrun
        dsimp only at hrun
        let start : Attached Tagged Overheard := ⟨some ⟨s.vfs.world.given, device⟩,
          { s.vfs.world with world := world, given := s.vfs.world.given + 1 }⟩
        have hends := Attached.hears_mount path start
        cases hmount : (Blob.mount path : StepM (Attached Tagged Overheard) Partition).run start with
        | ok partition a =>
          obtain ⟨hanswer, rfl⟩ := run_eq_ok_iff.mp hmount
          obtain ⟨hnumber, hgiven, calls, hheard, hclose⟩ := hends.value partition hanswer
          rw [show (⟨some ⟨s.vfs.world.given, device⟩, _⟩ : Attached Tagged Overheard) = start
            from rfl, hmount] at hrun
          simp only [after, hrun]
          have hnone : s.number? s.vfs.registry.records.size = none := by
            simp [number?, Registry.record?]
          refine .entered s.vfs.registry.records.size calls hclose hnone ?_ hgiven hheard
          rw [number?_enter]
          exact congrArg (Function.update s.number? s.vfs.registry.records.size) hnumber
        | error e a =>
          obtain ⟨hanswer, rfl⟩ := run_eq_error_iff.mp hmount
          obtain ⟨hgiven, calls, hheard, hclose⟩ := hends.failure e hanswer
          rw [show (⟨some ⟨s.vfs.world.given, device⟩, _⟩ : Attached Tagged Overheard) = start
            from rfl, hmount] at hrun
          simp only [after, hrun]
          exact .dismissed calls hclose rfl hgiven hheard

/-! ## What holds of the devices -/

/-- Records have different devices, and these were not closed. Any other device that was given out
was closed once, and that was the last call on it. -/
structure Attended (s : Session Tagged Overheard) : Prop where
  bounded : ∀ {id number}, s.number? id = some number → number < s.given
  apart : ∀ {id other number}, s.number? id = some number → s.number? other = some number → id = other
  open_heard : ∀ {id number}, s.number? id = some number → .close ∉ s.heard number
  closed_heard : ∀ number < s.given, (∀ id, s.number? id ≠ some number) → ClosedLast (s.heard number)
  unheard : ∀ number, s.given ≤ number → s.heard number = []

theorem attended_overheard (s : Session) (hempty : s.vfs.registry.records = #[]) :
    s.overheard.Attended := by
  have hnone : ∀ id, s.overheard.number? id = none := by
    intro id
    simp [number?, overheard, Registry.record?, hempty]
  have hgiven : s.overheard.given = 0 := by
    simp [given, overheard, hempty]
  constructor
  · intro id number h
    cases (hnone id).symm.trans h
  · intro id other number h
    cases (hnone id).symm.trans h
  · intro id number h
    cases (hnone id).symm.trans h
  · intro number h
    rw [hgiven] at h
    cases h
  · intro number _
    rfl

/-- Numbers are bounded, so the next one is not in use. -/
theorem Attended.number?_ne (h : s.Attended) (id : BlobId) {number : Nat}
    (hnumber : s.given ≤ number) : s.number? id ≠ some number :=
  fun hid => absurd (h.bounded hid) (Nat.not_lt.mpr hnumber)

/-- The device of one record is called and not closed. -/
theorem Attended.called (h : s.Attended) (id : BlobId) {calls : List DiskCall}
    (hclose : .close ∉ calls) (hnumbers : s'.number? = s.number?) (hgiven : s'.given = s.given)
    (hheard : s'.heard = (s.vfs.world.tell (s.number? id) calls).heard) : s'.Attended := by
  have hsame : ∀ {number}, s.number? id ≠ some number → s'.heard number = s.heard number :=
    fun hid => (congrFun hheard _).trans (Overheard.heard_tell_of_ne hid ..)
  refine ⟨?_, ?_, ?_, ?_, ?_⟩
  · rw [hnumbers, hgiven]
    exact h.bounded
  · rw [hnumbers]
    exact h.apart
  · intro other number hother
    rw [hnumbers] at hother
    by_cases hid : s.number? id = some number
    · rw [hheard, hid, Overheard.heard_tell_self, List.mem_append, not_or]
      exact ⟨hclose, h.open_heard hid⟩
    · rw [hsame hid]
      exact h.open_heard hother
  · intro number hnumber hnone
    rw [hnumbers] at hnone
    rw [hsame (hnone id)]
    exact h.closed_heard number (hgiven ▸ hnumber) hnone
  · intro number hnumber
    rw [hgiven] at hnumber
    rw [hsame (h.number?_ne id hnumber)]
    exact h.unheard number hnumber

theorem Attended.silent (h : s.Attended) (hnumbers : s'.number? = s.number?)
    (hgiven : s'.given = s.given) (hheard : s'.heard = s.heard) : s'.Attended :=
  h.called 0 List.not_mem_nil hnumbers hgiven (by rw [Overheard.tell_nil, hheard]; rfl)

theorem Attended.asking (h : s.Attended) (request : Request) :
    (s.after (.asking request)).Attended := by
  rcases asking_cases s request with
    ⟨hnumbers, hgiven, hheard⟩ | ⟨id, record, partition, -, hrecord, hafter⟩
  · exact h.silent hnumbers hgiven hheard
  · obtain ⟨-, hgiven, calls, hheard, hclose⟩ :=
      hears_onDevice request record.partition (attached record s.vfs)
    have hnumbers := number?_settle request partition hrecord
    rw [hafter]
    refine h.called id hclose hnumbers hgiven ?_
    rw [number?_of_record hrecord]
    exact hheard

/-- The device of one record is closed, and no record has it any more. -/
theorem Attended.closed (h : s.Attended)
    (hnumbers : s'.number? = Function.update s.number? id none) (hgiven : s'.given = s.given)
    (hheard : s'.heard = (s.vfs.world.tell (s.number? id) [.close]).heard) : s'.Attended := by
  have hsame : ∀ {number}, s.number? id ≠ some number → s'.heard number = s.heard number :=
    fun hid => (congrFun hheard _).trans (Overheard.heard_tell_of_ne hid ..)
  have hleft : ∀ {other number}, s'.number? other = some number →
      other ≠ id ∧ s.number? other = some number := by
    intro other number hother
    rw [hnumbers, Function.update_apply] at hother
    split at hother
    · cases hother
    · exact ⟨‹_›, hother⟩
  refine ⟨fun hother => ?_, fun hone hother => ?_, fun hother => ?_, ?_, ?_⟩
  · rw [hgiven]
    exact h.bounded (hleft hother).2
  · exact h.apart (hleft hone).2 (hleft hother).2
  · obtain ⟨hne, hnumber⟩ := hleft hother
    rw [hsame fun hid => hne (h.apart hnumber hid)]
    exact h.open_heard hnumber
  · intro number hnumber hnone
    by_cases hid : s.number? id = some number
    · rw [hheard, hid, Overheard.heard_tell_self]
      exact ⟨_, rfl, h.open_heard hid⟩
    · rw [hsame hid]
      refine h.closed_heard number (hgiven ▸ hnumber) fun other hother => ?_
      refine hnone other ?_
      rw [hnumbers, Function.update_of_ne, hother]
      rintro rfl
      exact hid hother
  · intro number hnumber
    rw [hgiven] at hnumber
    rw [hsame (h.number?_ne id hnumber)]
    exact h.unheard number hnumber

/-- A new device is entered with a new record. -/
theorem Attended.entered (h : s.Attended) {calls : List DiskCall} (hclose : .close ∉ calls)
    (hnew : s.number? id = none) (hnumbers : s'.number? = Function.update s.number? id (some s.given))
    (hgiven : s'.given = s.given + 1)
    (hheard : s'.heard = (s.vfs.world.tell (some s.given) calls).heard) : s'.Attended := by
  have hsame : ∀ {number}, s.given ≠ number → s'.heard number = s.heard number :=
    fun hne => (congrFun hheard _).trans
      (Overheard.heard_tell_of_ne (fun h => hne (Option.some.inj h)) ..)
  have hcases : ∀ {other number}, s'.number? other = some number →
      (other = id ∧ number = s.given) ∨ (s.number? other = some number ∧ number < s.given) := by
    intro other number hother
    rw [hnumbers, Function.update_apply] at hother
    split at hother
    · exact .inl ⟨‹_›, (Option.some.inj hother).symm⟩
    · exact .inr ⟨hother, h.bounded hother⟩
  refine ⟨fun hother => ?_, fun {one other number} hone hother => ?_, fun hother => ?_, ?_, ?_⟩
  · rw [hgiven]
    rcases hcases hother with ⟨-, rfl⟩ | ⟨-, hlt⟩
    · exact Nat.lt_succ_self _
    · exact Nat.lt_succ_of_lt hlt
  · rcases hcases hone with ⟨rfl, rfl⟩ | ⟨hone, hlt⟩ <;>
      rcases hcases hother with ⟨rfl, hnumber⟩ | ⟨hother, hlt'⟩
    · rfl
    · exact absurd hlt' (Nat.lt_irrefl _)
    · exact absurd (hnumber ▸ hlt) (Nat.lt_irrefl _)
    · exact h.apart hone hother
  · rcases hcases hother with ⟨-, rfl⟩ | ⟨hother, hlt⟩
    · have hnone : s.vfs.world.heard s.given = [] := h.unheard s.given (Nat.le_refl _)
      rw [hheard, Overheard.heard_tell_self, hnone, List.append_nil]
      exact hclose
    · rw [hsame (Nat.ne_of_gt hlt)]
      exact h.open_heard hother
  · intro number hnumber hnone
    have hne : s.given ≠ number := by
      rintro rfl
      exact hnone id (by rw [hnumbers, Function.update_self])
    rw [hsame hne]
    refine h.closed_heard number (by omega) fun other hother => hnone other ?_
    rw [hnumbers, Function.update_of_ne, hother]
    rintro rfl
    cases hnew.symm.trans hother
  · intro number hnumber
    rw [hsame (by omega)]
    exact h.unheard number (by omega)

/-- A new device is closed at once. -/
theorem Attended.dismissed (h : s.Attended) {calls : List DiskCall} (hclose : .close ∉ calls)
    (hnumbers : s'.number? = s.number?) (hgiven : s'.given = s.given + 1)
    (hheard : s'.heard = (s.vfs.world.tell (some s.given) (.close :: calls)).heard) :
    s'.Attended := by
  have hsame : ∀ {number}, s.given ≠ number → s'.heard number = s.heard number :=
    fun hne => (congrFun hheard _).trans
      (Overheard.heard_tell_of_ne (fun h => hne (Option.some.inj h)) ..)
  refine ⟨fun hid => ?_, ?_, fun hid => ?_, fun number hnumber hnone => ?_, fun number hnumber => ?_⟩
  · rw [hnumbers] at hid
    rw [hgiven]
    exact Nat.lt_succ_of_lt (h.bounded hid)
  · rw [hnumbers]
    exact h.apart
  · rw [hnumbers] at hid
    rw [hsame (Nat.ne_of_gt (h.bounded hid))]
    exact h.open_heard hid
  · rw [hnumbers] at hnone
    by_cases hlast : s.given = number
    · subst hlast
      have hsilent : s.vfs.world.heard s.given = [] := h.unheard s.given (Nat.le_refl _)
      rw [hheard, Overheard.heard_tell_self, hsilent, List.append_nil]
      exact ⟨calls, rfl, hclose⟩
    · rw [hsame hlast]
      exact h.closed_heard number (by omega) hnone
  · rw [hsame (by omega)]
    exact h.unheard number (by omega)

theorem Attended.hearing (h : s.Attended) (hhearing : Hearing s s') : s'.Attended := by
  cases hhearing with
  | silent hnumbers hgiven hheard => exact h.silent hnumbers hgiven hheard
  | closed id hnumbers hgiven hheard => exact h.closed hnumbers hgiven hheard
  | entered id calls hclose hnew hnumbers hgiven hheard =>
    exact h.entered hclose hnew hnumbers hgiven hheard
  | dismissed calls hclose hnumbers hgiven hheard => exact h.dismissed hclose hnumbers hgiven hheard

theorem attended_after (h : s.Attended) (deed : Deed) : (s.after deed.overheard).Attended := by
  cases deed with
  | opening path region openDevice => exact h.hearing (hearing_opening s path region openDevice)
  | asking request => exact h.asking request
  | closing number => exact h.hearing (hearing_closing s number)
  | meanwhile change => exact h.silent rfl rfl rfl

theorem attended_run (h : s.Attended) (deeds : List Deed) :
    (s.run (deeds.map Deed.overheard)).Attended := by
  induction deeds generalizing s with
  | nil => exact h
  | cons deed rest ih => exact ih (attended_after h deed)

/-! ## Handles and devices -/

/-- After any deeds: a name is open exactly while a handle under it is out; its record counts
these handles, all of them are on that record, and its device is there. A record that is not open
under its name has no device any more. An opening that fails leaves the registry as it is, and
one of a journal alone does nothing whatever `openDevice` would do.

The same deeds leave the same file system when every device is listened to. No two records
have the same device; the device of a record that is open was not closed; and any other device
that was ever given out, also one on which no blob was found, was closed once, and that was the
last call on it. -/
theorem handles_counted (world : World) (deeds : List Deed) :
    let s := (start world).run deeds
    let registry := s.vfs.registry
    let overheard := (start world).overheard.run (deeds.map Deed.overheard)
    (∀ name, (registry.lookup? name).isSome = true ↔ s.openUnder name ≠ []) ∧
    (∀ name id, registry.lookup? name = some id → ∃ record, registry.record? id = some record ∧
      record.name = name ∧ record.refs = (s.openUnder name).length ∧
      (∀ grant ∈ s.openUnder name, grant.handle.blob = id) ∧
      record.device.isSome = true) ∧
    (∀ id record, registry.record? id = some record → registry.lookup? record.name ≠ some id →
      record.refs = 0 ∧ record.device = none) ∧
    (∀ path region openDevice e vfs,
      (openVia path region openDevice).run s.vfs = .error e vfs → vfs.registry = registry) ∧
    (∀ path openDevice, registry.lookup? (blobName path .journal) = none →
      (openVia path .journal openDevice).run s.vfs =
        .error (.refused (.journalAlone (blobName path .journal))) s.vfs) ∧
    overheard.plain = s ∧
    (∀ name id, registry.lookup? name = some id → ∃ number, overheard.number? id = some number ∧
      number < overheard.given ∧ .close ∉ overheard.heard number ∧
      ∀ other, overheard.number? other = some number → other = id) ∧
    (∀ number < overheard.given,
      (∀ name id, registry.lookup? name = some id → overheard.number? id ≠ some number) →
      ClosedLast (overheard.heard number)) := by
  intro s registry overheard
  have h : s.Orderly := orderly_run (orderly_start world) deeds
  have hattended : overheard.Attended := attended_run (attended_overheard (start world) rfl) deeds
  have hplain : overheard.plain = s := by
    rw [plain_run, plain_overheard]
  have hnumbered : ∀ id, (overheard.number? id).isSome =
      ((registry.record? id).bind BlobRecord.device).isSome := by
    intro id
    rw [isSome_number?_eq, hplain]
  refine ⟨fun name => ⟨fun hopen => ?_, fun hout => ?_⟩, fun name id hname => ?_,
    fun id record hrecord hclosed => ?_, fun _ _ _ _ _ => registry_of_openVia_error,
    fun path openDevice => openVia_alone, hplain, fun name id hname => ?_,
    fun number hgiven hunnamed => ?_⟩
  · obtain ⟨id, hname⟩ := Option.isSome_iff_exists.mp hopen
    obtain ⟨record, hrecord, -, hpos⟩ := h.leads name id hname
    rw [(h.kept id record hrecord).refs_eq, h.holders_eq hname] at hpos
    exact List.ne_nil_of_length_pos hpos
  · obtain ⟨grant, hgrant⟩ := List.exists_mem_of_ne_nil _ hout
    obtain ⟨hgiven, rfl, hnot⟩ := mem_openUnder.mp hgrant
    rw [h.lookup?_of_out hgiven hnot, Option.isSome_some]
  · obtain ⟨record, hrecord, hrname, hpos⟩ := h.leads name id hname
    have hkept := h.kept id record hrecord
    refine ⟨record, hrecord, hrname, hkept.refs_eq.trans (h.holders_eq hname), ?_,
      hkept.held_iff.mpr hpos⟩
    intro grant hgrant
    obtain ⟨hgiven, rfl, hout⟩ := mem_openUnder.mp hgrant
    exact Option.some.inj ((h.lookup?_of_out hgiven hout).symm.trans hname)
  · have hkept := h.kept id record hrecord
    have hzero : record.refs = 0 :=
      Nat.eq_zero_of_not_pos fun hpos => hclosed (hkept.named hpos)
    refine ⟨hzero, ?_⟩
    rw [← Option.not_isSome_iff_eq_none, hkept.held_iff, hzero]
    exact Nat.lt_irrefl 0
  · obtain ⟨record, hrecord, -, hpos⟩ := h.leads name id hname
    have hthere := (h.kept id record hrecord).held_iff.mpr hpos
    rw [show record.device = (registry.record? id).bind BlobRecord.device by rw [hrecord]; rfl,
      ← hnumbered] at hthere
    obtain ⟨number, hnumber⟩ := Option.isSome_iff_exists.mp hthere
    exact ⟨number, hnumber, hattended.bounded hnumber, hattended.open_heard hnumber,
      fun other hother => hattended.apart hother hnumber⟩
  · refine hattended.closed_heard number hgiven fun id hid => ?_
    -- a record with a device is open under its name
    have hthere : ((registry.record? id).bind BlobRecord.device).isSome = true := by
      rw [← hnumbered, hid, Option.isSome_some]
    cases hrecord : registry.record? id with
    | none =>
      rw [hrecord] at hthere
      cases hthere
    | some record =>
      rw [hrecord] at hthere
      have hkept := h.kept id record hrecord
      exact hunnamed _ _ (hkept.named (hkept.held_iff.mp hthere)) hid

/-- A blob on memory is opened through both of its names and written to, and one handle is given
back. -/
def lending : List Deed :=
  [.opening "a" .database fun _ => pure (.ram "m"), .opening "a-journal" .journal World.openFile,
    .asking (.write ⟨.database, 0, 0⟩ 0 #[1]), .closing 0]

/-- The other handle is given back as well. -/
def returning : List Deed := lending ++ [.closing 1]

/-- While one of the two handles is out the device is there and not closed; when both were given
back it is closed once. -/
theorem handles_counted_lending :
    (let s := (start .initial).run lending
    let overheard := (start .initial).overheard.run (lending.map Deed.overheard)
    (s.openUnder "a").length = 1 ∧ ∃ id record number, s.vfs.registry.lookup? "a" = some id ∧
      s.vfs.registry.record? id = some record ∧ record.refs = 1 ∧
      overheard.number? id = some number ∧ .close ∉ overheard.heard number) ∧
    (let s := (start .initial).run returning
    let overheard := (start .initial).overheard.run (returning.map Deed.overheard)
    s.vfs.registry.lookup? "a" = none ∧ overheard.given = 1 ∧ ClosedLast (overheard.heard 0)) := by
  constructor
  · have hout : (((start .initial).run lending).openUnder "a").length = 1 := by decide +kernel
    obtain ⟨hopen, hrecord, -, -, -, -, hnumber, -⟩ := handles_counted .initial lending
    obtain ⟨id, hid⟩ := Option.isSome_iff_exists.mp
      ((hopen "a").mpr (List.ne_nil_of_length_pos (by rw [hout]; decide)))
    obtain ⟨record, hrecord, -, hrefs, -⟩ := hrecord "a" id hid
    obtain ⟨number, hnumber, -, hclose, -⟩ := hnumber "a" id hid
    exact ⟨hout, id, record, number, hid, hrecord, hrefs.trans hout, hnumber, hclose⟩
  · obtain ⟨hopen, -, -, -, -, -, -, hclosed⟩ := handles_counted .initial returning
    have hall : ∀ grant ∈ ((start .initial).run returning).grants, grant.closed = true := by
      rw [← List.all_eq_true]
      decide +kernel
    have hnone : ∀ name, ((start .initial).run returning).vfs.registry.lookup? name = none := by
      intro name
      rw [← Option.not_isSome_iff_eq_none, hopen, Classical.not_not, List.eq_nil_iff_forall_not_mem]
      intro grant hgrant
      obtain ⟨hgranted, -, hout⟩ := mem_openUnder.mp hgrant
      cases hout.symm.trans (hall grant hgranted)
    have hgiven : ((start .initial).overheard.run
        (returning.map Deed.overheard)).given = 1 := by decide +kernel
    refine ⟨hnone "a", hgiven, hclosed 0 (by rw [hgiven]; decide) fun name id hname => ?_⟩
    cases (hnone name).symm.trans hname

end Session

end TwinRegion
