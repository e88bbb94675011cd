/-
TwinRegion.Proofs.Window — a blob leaves the rest of its medium alone.

Whatever is done in a session, the device of a record receives few writes:
the size word, when that record's database is synced, and writes between the
header block and the end of the blob (`calls_after`). As long as no other
device is used (`Session.only`), what the device holds therefore keeps its
length, and its bytes outside of these places (`framed_after`).
-/
import TwinRegion.Proofs.Holding
import TwinRegion.Proofs.Lifetime

namespace TwinRegion

open StepM Vfs TwinRegion.Partition

/-! ## What is heard -/

namespace Attached

/-- Of the writes that were heard on a device since `start`, each is admitted, and nothing else was
heard. -/
structure Since (admitted : Nat → Nat → Prop) (start a : Attached Tagged Overheard) : Prop where
  number_eq : a.number? = start.number?
  since : ∃ calls, a.world.heard = (start.world.tell start.number? calls).heard ∧
    ∀ offset len, .write offset len ∈ calls → admitted offset len

variable {admitted : Nat → Nat → Prop} {start : Attached Tagged Overheard}

theorem preserves_pass_admitted {α : Type} {call : DiskCall} (onRam : StepM RamDisk α)
    (onFile : StepM FileDisk α) (hcall : ∀ offset len, call = .write offset len → admitted offset len) :
    Preserves (Since admitted start) (pass call (Attached.call onRam onFile)) := by
  rintro a ⟨hnumber, calls, hheard, hcalls⟩
  refine ⟨(number?_pass ..).trans hnumber, call :: calls, ?_, fun offset len hwrite => ?_⟩
  · rw [(world_pass ..).1, Overheard.heard_tell_congr hheard, hnumber, Overheard.heard_tell_tell]
    rfl
  · rcases List.mem_cons.mp hwrite with hnew | hold
    · exact hcall offset len hnew.symm
    · exact hcalls offset len hold

theorem keeps_since (admitted : Nat → Nat → Prop) (start : Attached Tagged Overheard) :
    Disk.Keeps (Since admitted start) admitted where
  ready a h := by rwa [reached_ready]
  read offset len := preserves_pass_admitted _ _ (by simp)
  write offset data hdata := preserves_pass_admitted _ _ (by rintro _ _ ⟨⟩; exact hdata)
  sync level := preserves_pass_admitted _ _ (by simp)

end Attached

/-! ## Deeds -/

namespace Deed

/-- The deed is a sync of the database of this record. -/
def Saves (id : BlobId) : Deed → Prop
  | .asking (.sync handle _) => handle.blob = id ∧ handle.region = .database
  | _ => False

theorem saves_of_target {D : Type} {registry : Registry D} {request : Request} {id : BlobId}
    (htarget : request.target registry = some id) (h : request.Saves) :
    (Deed.asking request).Saves id := by
  cases request with
  | sync handle flags => exact ⟨Option.some.inj htarget, h⟩
  | _ => exact h.elim

/-- A write of `len` bytes at `offset` is one that the deed may make on the device of this
record, whose blob has this capacity. -/
def Admits (id : BlobId) (capacity : Nat) (deed : Deed) (offset len : Nat) : Prop :=
  (deed.Saves id ∧ offset = 0 ∧ len = wordSize) ∨ Within capacity offset len

/-- The deed uses no device but the one of this record: it opens none, and asks nothing of
another record. -/
def Only (s : Session) (id : BlobId) : Deed → Prop
  | .opening path region _ =>
    region = .journal ∨ (s.vfs.registry.lookup? path).isSome
  | .asking request =>
    request.target s.vfs.registry = some id ∨ request.target s.vfs.registry = none
  | .closing _ => True
  | .meanwhile _ => False

end Deed

namespace Session

/-- All of the deeds, one after the other, use no device but the one of this record. -/
def only (s : Session) (id : BlobId) : List Deed → Prop
  | [] => True
  | deed :: rest => deed.Only s id ∧ (s.after deed).only id rest

variable {s : Session} {id : BlobId} {record : BlobRecord} {capacity : Nat}

/-- There is a record of this number, and its blob has this capacity. -/
def Has (s : Session) (id : BlobId) (capacity : Nat) : Prop :=
  ∃ record, s.vfs.registry.record? id = some record ∧ record.partition.capacity = capacity

/-! ## Openings and closings -/

/-- An opening leaves a record that there is as it is, but for its references. -/
theorem after_opening_record (hrecord : s.vfs.registry.record? id = some record) (path : String)
    (region : Region) (openDevice : String → StepM World Device) :
    ∃ refs, (s.after (.opening path region openDevice)).vfs.registry.record? id =
      some { record with refs := refs } := by
  cases hname : s.vfs.registry.lookup? (blobName path region) with
  | some other =>
    rw [after_opening_known hname]
    by_cases hother : other = id
    · subst hother
      exact ⟨record.refs + 1, by rw [record?_modifyRecord, hrecord, Option.map_some]⟩
    · exact ⟨record.refs, by rw [record?_modifyRecord_of_ne _ hother, hrecord]⟩
  | none =>
    cases region with
    | journal =>
      rw [after_opening_alone hname]
      exact ⟨record.refs, hrecord⟩
    | database =>
      have hnew : s.vfs.registry.lookup? path = none := hname
      cases hopen : (openVia path .database openDevice).run s.vfs with
      | error e vfs =>
        simp only [after, hopen]
        rw [registry_of_openVia_error hopen]
        exact ⟨record.refs, hrecord⟩
      | ok handle vfs =>
        obtain ⟨device, world, partition, a, hdevice, hmount, rfl, rfl⟩ :=
          entered_of_openVia hnew hopen
        have hne : id ≠ s.vfs.registry.records.size := by
          rintro rfl
          simp [Registry.record?] at hrecord
        simp only [after, hopen]
        exact ⟨record.refs, by rw [record?_enter, if_neg hne, hrecord]⟩

/-- A closing gives up a reference of some record, or does nothing to the files. -/
theorem after_closing_cases (s : Session) (number : Nat) :
    (s.after (.closing number)).vfs = s.vfs ∨
    ∃ handle record, s.vfs.registry.record? handle.blob = some record ∧
      (s.after (.closing number)).vfs = (Vfs.close handle).reached s.vfs := by
  by_cases hout : ∃ name handle, s.grants[number]? = some ⟨name, handle, false⟩
  · obtain ⟨name, handle, hgrant⟩ := hout
    cases hrecord : s.vfs.registry.record? handle.blob with
    | none =>
      simp only [after, hgrant, close_reached_absent hrecord]
      exact .inl trivial
    | some record =>
      refine .inr ⟨handle, record, hrecord, ?_⟩
      simp only [after, hgrant]
  · rw [after_closing_out fun name handle h => hout ⟨name, handle, h⟩]
    exact .inl rfl

/-- A closing leaves all contents alone. -/
theorem contents_closing (s : Session) (number : Nat) (origin : String ⊕ Nat) :
    (s.after (.closing number)).vfs.world.contents origin = s.vfs.world.contents origin := by
  rcases after_closing_cases s number with hvfs | ⟨handle, record, hrecord, hvfs⟩
  · rw [hvfs]
  · rw [hvfs, close_reached hrecord]
    split
    · exact Attached.contents_close (attached record s.vfs) origin
    · rfl

/-- A closing leaves the partition of a record that there is as it is. It can take its device. -/
theorem after_closing_record (hrecord : s.vfs.registry.record? id = some record) (number : Nat) :
    ∃ refs device, (s.after (.closing number)).vfs.registry.record? id =
        some { record with refs := refs, device := device } ∧
      (device = record.device ∨ device = none) := by
  rcases after_closing_cases s number with hvfs | ⟨handle, other, hother, hvfs⟩
  · rw [hvfs]
    exact ⟨record.refs, record.device, hrecord, .inl rfl⟩
  rw [hvfs, close_reached hother]
  by_cases hid : handle.blob = id
  · subst hid
    cases hrecord.symm.trans hother
    split
    · refine ⟨0, none, ?_, .inr rfl⟩
      exact (record?_modifyRecord _ _ _).trans (by rw [hrecord, Option.map_some])
    · refine ⟨record.refs - 1, record.device, ?_, .inl rfl⟩
      exact (record?_modifyRecord _ _ _).trans (by rw [hrecord, Option.map_some])
  · refine ⟨record.refs, record.device, ?_, .inl rfl⟩
    split <;> exact (record?_modifyRecord_of_ne _ hid _).trans hrecord

/-! ## Any deed -/

/-- Every record stays, with a blob of the same capacity. -/
theorem has_after (h : s.Has id capacity) (deed : Deed) : (s.after deed).Has id capacity := by
  obtain ⟨record, hrecord, hcapacity⟩ := h
  cases deed with
  | opening path region openDevice =>
    obtain ⟨refs, hnext⟩ := after_opening_record hrecord path region openDevice
    exact ⟨_, hnext, hcapacity⟩
  | closing number =>
    obtain ⟨refs, device, hnext, -⟩ := after_closing_record hrecord number
    exact ⟨_, hnext, hcapacity⟩
  | meanwhile change => exact ⟨record, hrecord, hcapacity⟩
  | asking request =>
    cases htarget : request.target s.vfs.registry with
    | none => exact ⟨record, by rw [after, Request.registry_of_untargeted htarget, hrecord], hcapacity⟩
    | some other =>
      cases hother : s.vfs.registry.record? other with
      | none =>
        rw [after_asking_absent htarget hother]
        exact ⟨record, hrecord, hcapacity⟩
      | some found =>
        obtain ⟨partition, hturns, hafter⟩ := after_asking htarget hother
        rw [hafter]
        by_cases hid : other = id
        · subst hid
          cases hrecord.symm.trans hother
          refine ⟨_, (record?_modifyRecord _ _ _).trans (by rw [hrecord, Option.map_some]), ?_⟩
          exact hturns.capacity_eq.trans hcapacity
        · exact ⟨record, (record?_modifyRecord_of_ne _ hid _).trans hrecord, hcapacity⟩

theorem has_run (h : s.Has id capacity) (deeds : List Deed) : (s.run deeds).Has id capacity := by
  induction deeds generalizing s with
  | nil => exact h
  | cons deed rest ih => exact ih (has_after h deed)

section overheard

variable {s : Session Tagged Overheard} {number : Nat}

/-- The device of a number was given out, and no record but this one has it. -/
def Lent (s : Session Tagged Overheard) (id : BlobId) (number : Nat) : Prop :=
  number < s.given ∧ ∀ other, s.number? other = some number → other = id

theorem lent_hearing {s' : Session Tagged Overheard} (h : s.Lent id number)
    (hhearing : Hearing s s') : s'.Lent id number := by
  obtain ⟨hgiven, hown⟩ := h
  cases hhearing with
  | silent hnumbers hsame _ => exact ⟨hsame ▸ hgiven, hnumbers ▸ hown⟩
  | closed closed hnumbers hsame _ =>
    refine ⟨hsame ▸ hgiven, fun other hother => hown other ?_⟩
    rw [hnumbers, Function.update_apply] at hother
    split at hother
    · cases hother
    · exact hother
  | entered entered calls _ _ hnumbers hmore _ =>
    refine ⟨hmore ▸ Nat.lt_succ_of_lt hgiven, fun other hother => hown other ?_⟩
    rw [hnumbers, Function.update_apply] at hother
    split at hother
    · exact absurd (Option.some.inj hother) (Nat.ne_of_gt hgiven)
    · exact hother
  | dismissed calls _ hnumbers hmore _ => exact ⟨hmore ▸ Nat.lt_succ_of_lt hgiven, hnumbers ▸ hown⟩

theorem lent_after (h : s.Lent id number) (deed : Deed) : (s.after deed.overheard).Lent id number := by
  cases deed with
  | opening path region openDevice => exact lent_hearing h (hearing_opening s path region openDevice)
  | closing place => exact lent_hearing h (hearing_closing s place)
  | meanwhile change => exact h
  | asking request =>
    rcases asking_cases s request with
      ⟨hnumbers, hgiven, -⟩ | ⟨other, record, partition, -, hrecord, hafter⟩
    · exact ⟨hgiven ▸ h.1, hnumbers ▸ h.2⟩
    · have hgiven := (hears_onDevice request record.partition (attached record s.vfs)).given_eq
      rw [Deed.overheard, hafter]
      refine ⟨Nat.lt_of_lt_of_eq h.1 hgiven.symm, fun place hplace => h.2 place ?_⟩
      rw [← hplace]
      exact congrFun (number?_settle request partition hrecord).symm place

theorem lent_run (h : s.Lent id number) (deeds : List Deed) :
    (s.run (deeds.map Deed.overheard)).Lent id number := by
  induction deeds generalizing s with
  | nil => exact h
  | cons deed rest ih => exact ih (lent_after h deed)

/-- An opening or a closing makes no write on a device that was given out before. -/
theorem heard_hearing {s' : Session Tagged Overheard} (hnumber : number < s.given)
    (hhearing : Hearing s s') : ∃ calls, s'.heard number = calls ++ s.heard number ∧
      ∀ offset len, .write offset len ∉ calls := by
  have hnone : ∃ calls, s.heard number = calls ++ s.heard number ∧
      ∀ offset len, .write offset len ∉ calls := ⟨[], rfl, fun _ _ => List.not_mem_nil⟩
  have hlater : ∀ calls, (s.vfs.world.tell (some s.given) calls).heard number = s.heard number :=
    fun calls => Overheard.heard_tell_of_ne
      (fun h => absurd (Option.some.inj h) (Nat.ne_of_gt hnumber)) calls _
  cases hhearing with
  | silent _ _ hheard => rwa [hheard]
  | closed id _ _ hheard =>
    rw [hheard]
    by_cases hid : s.number? id = some number
    · rw [hid, Overheard.heard_tell_self]
      exact ⟨[.close], rfl, fun _ _ h => by cases List.mem_singleton.mp h⟩
    · rwa [Overheard.heard_tell_of_ne hid]
  | entered id calls _ _ _ _ hheard => rwa [hheard, hlater]
  | dismissed calls _ _ _ hheard => rwa [hheard, hlater]

/-- The writes that the device of a record receives by a deed are those that the deed may
make. -/
theorem calls_after (h : s.plain.Has id capacity) (hlong : 2 * blockSize ≤ capacity)
    (hlent : s.Lent id number) (deed : Deed) :
    ∃ calls, (s.after deed.overheard).heard number = calls ++ s.heard number ∧
      ∀ offset len, .write offset len ∈ calls → deed.Admits id capacity offset len := by
  have hquiet : ∀ {s'}, Hearing s s' → ∃ calls, s'.heard number = calls ++ s.heard number ∧
      ∀ offset len, .write offset len ∈ calls → deed.Admits id capacity offset len := by
    intro s' hhearing
    obtain ⟨calls, hheard, hnone⟩ := heard_hearing hlent.1 hhearing
    exact ⟨calls, hheard, fun _ _ hwrite => absurd hwrite (hnone _ _)⟩
  cases deed with
  | opening path region openDevice => exact hquiet (hearing_opening s path region openDevice)
  | closing place => exact hquiet (hearing_closing s place)
  | meanwhile change => exact hquiet (.silent rfl rfl rfl)
  | asking request =>
    rcases asking_cases s request with
      ⟨hnumbers, hgiven, hheard⟩ | ⟨other, record, partition, htarget, hrecord, hafter⟩
    · exact hquiet (.silent hnumbers hgiven hheard)
    rw [Deed.overheard, hafter]
    by_cases hnumber : s.number? other = some number
    · obtain rfl := hlent.2 other hnumber
      obtain ⟨found, hfound, rfl⟩ := h
      obtain rfl : record.plain = found := by
        have hplain : s.plain.vfs.registry.record? other = some record.plain :=
          (Registry.record?_plain _ _).trans (by rw [hrecord, Option.map_some])
        exact Option.some.inj (hplain.symm.trans hfound)
      obtain ⟨-, calls, hheard, hcalls⟩ := request.preserves_onDevice
        (Attached.keeps_since _ (attached record s.vfs)) hlong (attached record s.vfs)
        ⟨rfl, [], by rw [Overheard.tell_nil], fun _ _ h => by cases h⟩
      refine ⟨calls, ?_, fun offset len hwrite => ?_⟩
      · rw [← number?_of_record hrecord, hnumber] at hheard
        exact (congrFun hheard number).trans (Overheard.heard_tell_self ..)
      · exact (hcalls offset len hwrite).imp_left fun hsize =>
          ⟨Deed.saves_of_target htarget hsize.1, hsize.2⟩
    · obtain ⟨-, -, calls, hheard, -⟩ :=
        hears_onDevice request record.partition (attached record s.vfs)
      refine ⟨[], ?_, fun _ _ h => by cases h⟩
      rw [← number?_of_record hrecord] at hheard
      exact (congrFun hheard number).trans (Overheard.heard_tell_of_ne hnumber ..)

/-- Everyone listens from now on: the device of a record has the record's number. -/
theorem eq_of_number?_overheard {s : Session} (h : s.overheard.number? id = some number) :
    id = number := by
  obtain ⟨record, hrecord, hdevice⟩ := Option.bind_eq_some_iff.mp h
  obtain ⟨tagged, htagged, rfl⟩ := Option.map_eq_some_iff.mp hdevice
  rw [overheard, Registry.record?, Array.getElem?_mapIdx] at hrecord
  obtain ⟨found, -, rfl⟩ := Option.map_eq_some_iff.mp hrecord
  obtain ⟨device, -, rfl⟩ := Option.map_eq_some_iff.mp htagged
  rfl

/-- The first device that is given out then goes to the next record. -/
theorem lent_opening {s : Session} {path : String} {openDevice : String → StepM World Device}
    {record : BlobRecord} (hnew : s.vfs.registry.record? id = none)
    (hid : id = s.vfs.registry.records.size)
    (hrecord : (s.after (.opening path .database openDevice)).vfs.registry.record? id = some record)
    (hdevice : record.device.isSome = true) :
    (s.overheard.after (Deed.opening path .database openDevice).overheard).Lent id id ∧
      (s.overheard.after (Deed.opening path .database openDevice).overheard).number? id = some id := by
  have hnone : s.overheard.number? id = none := by
    rw [← Option.not_isSome_iff_eq_none, isSome_number?_eq, plain_overheard, hnew]
    exact Bool.false_ne_true
  have hsome : ((s.overheard.after (Deed.opening path .database openDevice).overheard).number?
      id).isSome = true := by
    rw [isSome_number?_eq, plain_after, plain_overheard, hrecord]
    exact hdevice
  cases hearing_opening s.overheard path .database openDevice with
  | silent hnumbers _ _ =>
    rw [hnumbers, hnone] at hsome
    cases hsome
  | closed closed hnumbers _ _ =>
    rw [hnumbers, Function.update_apply, hnone, ite_self] at hsome
    cases hsome
  | dismissed calls _ hnumbers _ _ =>
    rw [hnumbers, hnone] at hsome
    cases hsome
  | entered entered calls _ _ hnumbers hgiven _ =>
    have hstart : s.overheard.given = id := hid.symm
    obtain rfl : id = entered := by
      by_contra hne
      rw [hnumbers, Function.update_of_ne hne, hnone] at hsome
      cases hsome
    rw [hstart] at hnumbers hgiven
    refine ⟨⟨hgiven ▸ Nat.lt_succ_self id, fun other hother => ?_⟩, ?_⟩
    · rw [hnumbers, Function.update_apply] at hother
      split at hother
      · assumption
      · exact eq_of_number?_overheard hother
    · rw [hnumbers, Function.update_self]

end overheard

/-! ## Deeds on one device -/

/-- There is a record of this number; its blob has this capacity, and what is behind its device is
framed by `before`. -/
def Framed (s : Session) (id : BlobId) (origin : String ⊕ Nat) (capacity : Nat) (before : FileBody) :
    Prop :=
  ∃ record, s.vfs.registry.record? id = some record ∧ record.partition.capacity = capacity ∧
    (attached record s.vfs).Holding origin (FileBody.Framed capacity before)

variable {origin : String ⊕ Nat} {before : FileBody}

/-- What is asked of no record leaves all contents alone. -/
theorem contents_untargeted {request : Request} {vfs : Vfs}
    (htarget : request.target vfs.registry = none) (origin : String ⊕ Nat) :
    (request.perform.reached vfs).world.contents origin = vfs.world.contents origin := by
  cases request with
  | remove path =>
    rw [Request.perform, reached_bind_pure,
      (run_eq_ok_iff.mp (Request.run_remove_untargeted htarget)).2]
  | setFaults medium faults =>
    rw [Request.perform, reached_bind_pure, reached_modify]
    dsimp only
    rw [Around.change_eq, World.contents_setMedium]
    split
    · subst origin
      rfl
    · rfl
  | _ => cases htarget

/-- A device of which nothing but the device itself was taken away still holds what it held. -/
theorem holding_of_contents {a b : Attached} {held : FileBody → Prop}
    (h : a.Holding origin held) (hdevice : b.device = a.device ∨ b.device = none)
    (hcontents : ∀ origin, b.world.contents origin = a.world.contents origin) :
    b.Holding origin held := by
  have hstill : ∀ device, b.device = some device → a.device = some device := by
    intro device hb
    rcases hdevice with hsame | hgone
    · exact hsame.symm.trans hb
    · cases hgone.symm.trans hb
  refine ⟨fun device hb => h.origin_eq device (hstill device hb), fun handle hb => ?_, ?_⟩
  · have hsteady := h.steady handle (hstill _ hb)
    have hbody : b.world.files.body handle.number = a.world.files.body handle.number :=
      hcontents (.inr handle.number)
    rw [World.fileDisk, hbody]
    exact hsteady
  · rw [hcontents]
    exact h.held

/-- An opening that asks for no device leaves the world alone. -/
theorem world_opening {path : String} {region : Region} {openDevice : String → StepM World Device}
    (honly : (Deed.opening path region openDevice).Only s id) :
    (s.after (.opening path region openDevice)).vfs.world = s.vfs.world := by
  cases hname : s.vfs.registry.lookup? (blobName path region) with
  | some other => rw [after_opening_known hname]
  | none =>
    rcases honly with rfl | hopen
    · rw [after_opening_alone hname]
    · cases region with
      | journal => rw [after_opening_alone hname]
      | database =>
        rw [show s.vfs.registry.lookup? path = none from hname] at hopen
        cases hopen

/-- There is a record of this number, with a partition that is so, and what is behind its device
is held so. -/
def Held (s : Session) (id : BlobId) (origin : String ⊕ Nat) (shape : Partition → Prop)
    (held : FileBody → Prop) : Prop :=
  ∃ record, s.vfs.registry.record? id = some record ∧ shape record.partition ∧
    (attached record s.vfs).Holding origin held

/-- A deed that uses no other device preserves what the requests about the record preserve. -/
theorem held_after {shape : Partition → Prop} {held : FileBody → Prop}
    (h : s.Held id origin shape held) {deed : Deed} (honly : deed.Only s id)
    (hasking : ∀ request partition, deed = .asking request → shape partition →
      Preserves (Attached.Holding origin held) (request.onDevice partition) ∧
        ∀ next, request.Turns partition next → shape next) :
    (s.after deed).Held id origin shape held := by
  obtain ⟨record, hrecord, hshape, hholding⟩ := h
  cases deed with
  | opening path region openDevice =>
    obtain ⟨refs, hnext⟩ := after_opening_record hrecord path region openDevice
    refine ⟨_, hnext, hshape, holding_of_contents hholding (.inl rfl) fun origin => ?_⟩
    rw [attached, world_opening honly, attached]
  | closing number =>
    obtain ⟨refs, device, hnext, hdevice⟩ := after_closing_record hrecord number
    exact ⟨_, hnext, hshape, holding_of_contents hholding hdevice (contents_closing s number)⟩
  | meanwhile change => exact honly.elim
  | asking request =>
    rcases honly with htarget | htarget
    · obtain ⟨partition, hturns, hafter⟩ := after_asking htarget hrecord
      obtain ⟨hpreserves, hturn⟩ := hasking request record.partition rfl hshape
      rw [hafter]
      refine ⟨_, (record?_modifyRecord _ _ _).trans (by rw [hrecord, Option.map_some]),
        hturn partition hturns, ?_⟩
      exact hpreserves (attached record s.vfs) hholding
    · rw [after]
      refine ⟨record, by rw [Request.registry_of_untargeted htarget, hrecord], hshape, ?_⟩
      exact holding_of_contents hholding (.inl rfl) fun origin => contents_untargeted htarget origin

theorem held_run {shape : Partition → Prop} {held : FileBody → Prop} {deeds : List Deed}
    (h : s.Held id origin shape held) (honly : s.only id deeds)
    (hasking : ∀ request partition, .asking request ∈ deeds → shape partition →
      Preserves (Attached.Holding origin held) (request.onDevice partition) ∧
        ∀ next, request.Turns partition next → shape next) :
    (s.run deeds).Held id origin shape held := by
  induction deeds generalizing s with
  | nil => exact h
  | cons deed rest ih =>
    refine ih (held_after h honly.1 fun request partition hdeed => ?_) honly.2
      fun request partition hrequest => hasking request partition (List.mem_cons_of_mem _ hrequest)
    exact hasking request partition (hdeed ▸ List.mem_cons_self)

/-- A deed that uses no other device leaves what is behind this one framed. -/
theorem framed_after (h : s.Framed id origin capacity before) (hlong : 2 * blockSize ≤ capacity)
    (hcapacity : capacity ≤ standardCapacity) {deed : Deed} (honly : deed.Only s id) :
    (s.after deed).Framed id origin capacity before := by
  have hword : wordSize ≤ capacity := Nat.le_trans (by decide) hlong
  have hheld : s.Held id origin (·.capacity = capacity) (FileBody.Framed capacity before) := h
  refine held_after hheld honly fun request partition _ hshape => ⟨?_, fun next hturns => ?_⟩
  · subst hshape
    exact request.preserves_onDevice
      ((Attached.keeps_framed hword hcapacity).mono fun _ _ h => h.imp_left And.right) hlong
  · exact hturns.capacity_eq.trans hshape

theorem framed_run (hlong : 2 * blockSize ≤ capacity) (hcapacity : capacity ≤ standardCapacity)
    {deeds : List Deed} (h : s.Framed id origin capacity before) (honly : s.only id deeds) :
    (s.run deeds).Framed id origin capacity before := by
  induction deeds generalizing s with
  | nil => exact h
  | cons deed rest ih => exact ih (framed_after h hlong hcapacity honly.1) honly.2

/-! ## Opened blobs -/

/-- Whatever is done after a blob was opened, and whether it succeeds or not: a write that the
blob's device receives is the size word, by a sync of its database, or lies between the header
block and the end of the blob. This is of the calls that are heard when the same is done and
everyone listens. While no other device is used, the medium keeps the length that it had when the
blob had been opened, and its bytes after the size word and from the end of the blob on. -/
theorem writes_stay_inside {s : Session} {path : String} {openDevice : String → StepM World Device}
    {handle : Handle} {opened : Vfs} (hnew : s.vfs.registry.lookup? path = none)
    (hopen : (openVia path .database openDevice).run s.vfs = .ok handle opened) :
    let first := s.after (.opening path .database openDevice)
    let overheard := s.overheard.after (Deed.opening path .database openDevice).overheard
    ∃ partition, first.vfs.registry.partition? path = some partition ∧
      overheard.number? handle.blob = some handle.blob ∧
      (∀ deeds, (overheard.run (deeds.map Deed.overheard)).plain = first.run deeds) ∧
      (∀ (deeds : List Deed) (deed : Deed), ∃ calls,
        let heard := overheard.run (deeds.map Deed.overheard)
        (heard.after deed.overheard).heard handle.blob = calls ++ heard.heard handle.blob ∧
        ∀ offset len, .write offset len ∈ calls →
          (deed.Saves handle.blob ∧ offset = 0 ∧ len = wordSize) ∨
          (blockSize ≤ offset ∧ offset + len ≤ partition.capacity)) ∧
      (∀ device world, (openDevice path).run s.vfs.world = .ok device world → device.Fresh world →
        ∀ deeds, first.only handle.blob deeds →
        let image := device.image first.vfs.world
        let last := device.image (first.run deeds).vfs.world
        last.size = image.size ∧
        ∀ x, (wordSize ≤ x ∧ x < blockSize) ∨ partition.capacity ≤ x →
          last.byte x = image.byte x) := by
  intro first overheard
  obtain ⟨device, world, partition, a, hdevice, hmount, rfl, rfl⟩ := entered_of_openVia hnew hopen
  obtain ⟨hlong, hcapacity, -⟩ :=
    (Blob.ends_mount_found path _).value partition (run_eq_ok_iff.mp hmount).1
  have hvfs : first.vfs = ⟨(s.vfs.registry.enter path ⟨path, a.device, partition, 1⟩).2, a.world⟩ := by
    simp only [first, after, hopen]
  have hrecord : first.vfs.registry.record? s.vfs.registry.records.size =
      some ⟨path, a.device, partition, 1⟩ := by
    rw [hvfs, record?_enter, if_pos rfl]
  have hnamed : first.vfs.registry.lookup? path = some s.vfs.registry.records.size := by
    rw [hvfs, lookup?_enter, if_pos rfl]
  have hhas : first.Has s.vfs.registry.records.size partition.capacity := ⟨_, hrecord, rfl⟩
  have hthere := (Blob.ends_mount_lasting path _).value partition (run_eq_ok_iff.mp hmount).1
  rw [(run_eq_ok_iff.mp hmount).2] at hthere
  obtain ⟨hlent, hnumber⟩ := lent_opening (by simp [Registry.record?]) rfl hrecord hthere
  have hplain : ∀ deeds, (overheard.run (deeds.map Deed.overheard)).plain = first.run deeds := by
    intro deeds
    rw [plain_run, plain_after, plain_overheard]
  refine ⟨partition, ?_, hnumber, hplain, fun deeds deed => ?_, ?_⟩
  · simp only [Registry.partition?, hnamed, Option.bind_eq_bind, Option.bind_some, hrecord]
    rfl
  · refine calls_after ?_ hlong (lent_run hlent deeds) deed
    rw [hplain]
    exact has_run hhas deeds
  · intro given there hgiven hfresh deeds honly image last
    obtain ⟨rfl, rfl⟩ := EStateM.Result.ok.inj (hdevice.symm.trans hgiven)
    have hroomy := (Attached.ends_mount_roomy hfresh path).value _ (run_eq_ok_iff.mp hmount).1
    rw [(run_eq_ok_iff.mp hmount).2] at hroomy
    have hstart : first.Framed s.vfs.registry.records.size device.origin partition.capacity
        (first.vfs.world.contents device.origin) := by
      refine ⟨_, hrecord, rfl, ?_⟩
      rw [attached, hvfs]
      exact ⟨hroomy.origin_eq, hroomy.steady, hroomy.held.framed⟩
    obtain ⟨record, -, -, hholding⟩ := framed_run hlong hcapacity hstart honly
    exact hholding.held.image_eq

theorem writes_stay_inside_first_commit :
    ∃ (handle : Handle) (opened : Vfs),
      (openVia "a" .database fun _ => pure (.ram "m")).run .initial = .ok handle opened ∧
      let first := (start .initial).after (.opening "a" .database fun _ => pure (.ram "m"))
      let last := first.run [.opening "a-journal" .journal World.openFile,
        .asking (.write ⟨.journal, handle.blob, 0⟩ 0 #[1]),
        .asking (.sync ⟨.database, handle.blob, 0⟩ 0), .closing 1, .closing 0]
      first.vfs.registry.partition? "a" = some (.blank standardCapacity) ∧
      (last.vfs.world.medium "m").image.size = standardCapacity ∧
      ∀ x, wordSize ≤ x → x < blockSize → (last.vfs.world.medium "m").image.byte x = 0 := by
  obtain ⟨handle, opened, hopen, hserves⟩ := openVia_initial "a" "m"
  refine ⟨handle, opened, hopen, ?_⟩
  intro first last
  have hfirst : first.vfs = opened := by
    have hrun : (openVia "a" .database fun _ => pure (.ram "m")).run (start .initial).vfs =
        .ok handle opened := hopen
    simp only [first, after, hrun]
  have hblank : first.vfs.registry.partition? "a" = some (.blank standardCapacity) := by
    rw [hfirst]
    exact hserves.partition?_eq
  obtain ⟨partition, -, -, -, -, hkept⟩ := @writes_stay_inside (start .initial) "a"
    (fun _ => pure (.ram "m")) handle opened (lookup?_initial "a") hopen
  have honly : first.only handle.blob [.opening "a-journal" .journal World.openFile,
      .asking (.write ⟨.journal, handle.blob, 0⟩ 0 #[1]),
      .asking (.sync ⟨.database, handle.blob, 0⟩ 0), .closing 1, .closing 0] :=
    ⟨.inl rfl, .inl rfl, .inl rfl, trivial, trivial, trivial⟩
  obtain ⟨hsize, hbyte⟩ := hkept (.ram "m") .initial rfl trivial _ honly
  have himage : (Device.ram "m").image first.vfs.world = RamDisk.materialised.image := by
    rw [hfirst]
    exact congrArg RamDisk.image hserves.medium_eq
  rw [himage] at hsize hbyte
  refine ⟨hblank, hsize, fun x hword hblock => (hbyte x (.inl ⟨hword, hblock⟩)).trans ?_⟩
  have hlast : blockSize ≤ standardCapacity - 1 := by decide
  show (Image.empty.write (standardCapacity - 1) #[0]).byte x = 0
  rw [Image.byte_write, if_neg (by omega), Image.byte_empty]

end Session

end TwinRegion
