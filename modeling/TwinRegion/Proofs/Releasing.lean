/-
TwinRegion.Proofs.Releasing — what a release does to other records.

References are taken and given up by record, but a name is taken off by its
letters, whichever record it leads to (`Registry.unname`). A record that has
lost its last reference can be released again, and so can one that never
came into the registry. Such a release touches no other record
(`record?_released_of_ne`), but it takes the name off the record that was
opened under it in the meantime, which nobody finds then while it is in use
(`second_release_hides_reopened`).

Here is what the users of a registry can do (`Dealing`), and when each of
them finds every record that is in use: exactly as long as nobody takes a
name off another's record, or enters a record under a name that is not its
own (`releases_spare_others_iff`).
-/
import Mathlib.Tactic.ByContra
import TwinRegion.Proofs.Accepting
import TwinRegion.Proofs.Holding
import TwinRegion.Proofs.Session

namespace TwinRegion

open StepM Vfs

/-! ## Dealings -/

/-- Opens a blob under a name, on the device that `openDevice` gives for it. -/
def createOn (name : String) (openDevice : String → StepM World Device) : StepM World BlobRecord := do
  openBlob name (← openDevice name)

/-- What is done with a registry, and what happens to the world meanwhile. -/
inductive Dealing where
  /-- Takes a reference on the blob of a name; a record that is missing is made of the blob that
  `openDevice` gives for a name of its own. -/
  | acquiring (name : String) (region : Region) (own : String)
      (openDevice : String → StepM World Device)
  /-- Opens a blob that gets no name and no reference. -/
  | keeping (own : String) (openDevice : String → StepM World Device)
  | finding (name : String)
  /-- Gives a reference up on any record, whether it has one or not. -/
  | releasing (id : BlobId)
  | meanwhile (change : World → World)

/-- The registry and the world after a dealing, successful or not. -/
def Dealing.after (vfs : Vfs) : Dealing → Vfs
  | .acquiring name region own openDevice =>
    (retain name region fun _ => createOn own openDevice).reached vfs
  | .keeping own openDevice =>
    match (createOn own openDevice).run vfs.world with
    | .ok record world => ⟨(vfs.registry.keep record).2, world⟩
    | .error _ world => { vfs with world := world }
  | .finding _ => vfs
  | .releasing id => (relinquish id).reached vfs
  | .meanwhile change => { vfs with world := change vfs.world }

/-- The registry and the world after dealings made one after the other. -/
def Vfs.deal (vfs : Vfs) (dealings : List Dealing) : Vfs := dealings.foldl Dealing.after vfs

namespace Registry

variable {registry : Registry} {id : BlobId} {record : BlobRecord}

/-- Every record with a reference is found under its name, and its device is there. -/
def Findable (registry : Registry) : Prop :=
  ∀ id record, registry.record? id = some record → 0 < record.refs →
    registry.lookup? record.name = some id ∧ record.device.isSome = true

/-- Every name leads to a record that goes by it and has a reference. -/
def Leading (registry : Registry) : Prop :=
  ∀ name id, registry.lookup? name = some id →
    ∃ record, registry.record? id = some record ∧ record.name = name ∧ 0 < record.refs

/-- The name of a record leads to no other, if a release of this one would take it off. -/
def Spares (registry : Registry) (id : BlobId) : Prop :=
  ∀ record other, registry.record? id = some record → record.refs ≤ 1 →
    registry.lookup? record.name = some other → other = id

/-- Where everyone is found, only a record without references can have its name taken by another. -/
theorem Findable.spares_iff (h : registry.Findable) (hleading : registry.Leading)
    (hrecord : registry.record? id = some record) :
    registry.Spares id ↔ (record.refs = 0 → registry.lookup? record.name = none) := by
  constructor
  · intro hspares hzero
    rw [Option.eq_none_iff_forall_ne_some]
    intro other hname
    obtain rfl := hspares record other hrecord (by omega) hname
    obtain ⟨r, hr, -, hpos⟩ := hleading _ _ hname
    cases hrecord.symm.trans hr
    omega
  · intro hnone r other hr _ hname
    cases hrecord.symm.trans hr
    rcases Nat.eq_zero_or_pos record.refs with hzero | hpos
    · cases hname.symm.trans (hnone hzero)
    · exact Option.some.inj (hname.symm.trans (h id record hrecord hpos).1)

end Registry

/-- A new record goes by the name that was asked for, and a release takes the name off no other
record. -/
def Dealing.Fair (vfs : Vfs) : Dealing → Prop
  | .acquiring name region own openDevice =>
    vfs.registry.lookup? name = none →
      ∀ id, (retain name region fun _ => createOn own openDevice).answer vfs = .ok id → own = name
  | .releasing id => vfs.registry.Spares id
  | .keeping .. | .finding _ | .meanwhile _ => True

namespace Vfs

variable {vfs : Vfs} {id : BlobId} {record : BlobRecord}

/-! ## Releases -/

/-- What a release leads to: the closing of a handle on the record. -/
theorem reached_relinquish (hrecord : vfs.registry.record? id = some record) :
    (relinquish id).reached vfs =
      if record.refs - 1 = 0 then
        { registry := (vfs.registry.modifyRecord id fun r =>
            { r with refs := 0, device := none }).unname record.name
          world := ((Disk.close : StepM Attached Unit).reached (attached record vfs)).world }
      else
        { vfs with
          registry := vfs.registry.modifyRecord id fun r => { r with refs := record.refs - 1 } } :=
  @close_reached _ _ _ vfs record _ ⟨.database, id, 0⟩ hrecord

theorem registry_released (hrecord : vfs.registry.record? id = some record) :
    ((relinquish id).reached vfs).registry =
      if record.refs - 1 = 0 then
        (vfs.registry.modifyRecord id fun r => { r with refs := 0, device := none }).unname record.name
      else vfs.registry.modifyRecord id fun r => { r with refs := record.refs - 1 } := by
  rw [reached_relinquish hrecord]
  split <;> rfl

theorem released_absent (hrecord : vfs.registry.record? id = none) :
    (relinquish id).reached vfs = vfs := @close_reached_absent _ _ _ vfs ⟨.database, id, 0⟩ hrecord

theorem record?_released_of_ne {other : BlobId} (hother : other ≠ id) :
    ((relinquish id).reached vfs).registry.record? other = vfs.registry.record? other := by
  cases hrecord : vfs.registry.record? id with
  | none => rw [released_absent hrecord]
  | some record =>
    rw [registry_released hrecord]
    split <;> exact record?_modifyRecord_of_ne _ hother.symm _

theorem record?_released (id : BlobId) :
    ((relinquish id).reached vfs).registry.record? id = (vfs.registry.record? id).map fun record =>
      { record with
        refs := record.refs - 1
        device := if record.refs - 1 = 0 then none else record.device } := by
  cases hrecord : vfs.registry.record? id with
  | none => rw [released_absent hrecord, hrecord, Option.map_none]
  | some record =>
    rw [registry_released hrecord]
    split
    · rename_i hlast
      refine (record?_modifyRecord ..).trans ?_
      rw [hrecord, Option.map_some, Option.map_some, if_pos hlast, hlast]
    · rename_i hlast
      refine (record?_modifyRecord ..).trans ?_
      rw [hrecord, Option.map_some, Option.map_some, if_neg hlast]

theorem lookup?_released (hrecord : vfs.registry.record? id = some record) (name : String) :
    ((relinquish id).reached vfs).registry.lookup? name =
      if record.refs ≤ 1 ∧ record.name = name then none else vfs.registry.lookup? name := by
  rw [registry_released hrecord]
  by_cases hlast : record.refs - 1 = 0
  · rw [if_pos hlast, lookup?_unname]
    by_cases hname : record.name = name
    · rw [if_pos hname, if_pos ⟨by omega, hname⟩]
    · rw [if_neg hname, if_neg fun h => hname h.2]
      rfl
  · rw [if_neg hlast, if_neg fun h => hlast (by omega)]
    rfl

/-- The bytes of every medium and file stay as they are. -/
theorem contents_released (id : BlobId) (origin : String ⊕ Nat) :
    ((relinquish id).reached vfs).world.contents origin = vfs.world.contents origin := by
  cases hrecord : vfs.registry.record? id with
  | none => rw [released_absent hrecord]
  | some record =>
    rw [reached_relinquish hrecord]
    split
    · exact Attached.contents_close (attached record vfs) origin
    · rfl

/-- A release takes off names of its own record only exactly if it spares the others. -/
theorem names_released_iff (id : BlobId) :
    (∀ name other, vfs.registry.lookup? name = some other → other ≠ id →
      ((relinquish id).reached vfs).registry.lookup? name = some other) ↔
      vfs.registry.Spares id := by
  cases hrecord : vfs.registry.record? id with
  | none =>
    rw [released_absent hrecord]
    refine ⟨fun _ record other hr => ?_, fun _ name other hname _ => hname⟩
    cases hrecord.symm.trans hr
  | some record =>
    constructor
    · intro hkept r other hr hlast hname
      cases hrecord.symm.trans hr
      by_contra hother
      have hstill := hkept record.name other hname hother
      rw [lookup?_released hrecord, if_pos ⟨hlast, rfl⟩] at hstill
      cases hstill
    · intro hspares name other hname hother
      rw [lookup?_released hrecord, if_neg]
      · exact hname
      · rintro ⟨hlast, rfl⟩
        exact hother (hspares record other hrecord hlast hname)

/-! ## Acquisitions -/

variable {name own : String} {region : Region} {openDevice : String → StepM World Device}

/-- A blob that was opened has a device, and nobody refers to it yet. -/
theorem created_of_createOn {world world' : World}
    (h : (createOn own openDevice).run world = .ok record world') :
    record.name = own ∧ record.refs = 0 ∧ record.device.isSome = true := by
  rw [createOn, EStateM.run_bind] at h
  cases hdevice : (openDevice own).run world with
  | error e world => simp [hdevice] at h
  | ok device opened =>
    simp only [hdevice, openBlob, Attached.through, run_focus, EStateM.run_bind, EStateM.run_get] at h
    cases hmount : (Blob.mount own : StepM Attached Partition).run ⟨some device, opened⟩ with
    | ok partition a =>
      have hthere := (Blob.ends_mount_lasting own _).value partition (run_eq_ok_iff.mp hmount).1
      rw [(run_eq_ok_iff.mp hmount).2] at hthere
      simp only [hmount, EStateM.run_pure] at h
      obtain ⟨rfl, -⟩ := EStateM.Result.ok.inj h
      exact ⟨rfl, rfl, hthere⟩
    | error e a => simp [hmount] at h

/-- An acquisition takes a reference on the record of the name, fails, or enters a record. -/
theorem acquired_cases (vfs : Vfs) (name own : String) (region : Region)
    (openDevice : String → StepM World Device) :
    let step := retain name region fun _ => createOn own openDevice
    (∃ id, vfs.registry.lookup? name = some id ∧ (step.reached vfs).registry =
      vfs.registry.modifyRecord id fun r => { r with refs := r.refs + 1 }) ∨
    vfs.registry.lookup? name = none ∧
      ((∃ e, step.answer vfs = .error e) ∧ (step.reached vfs).registry = vfs.registry ∨
        ∃ id record, step.answer vfs = .ok id ∧ record.name = own ∧ 0 < record.refs ∧
          record.device.isSome = true ∧
          (step.reached vfs).registry = (vfs.registry.enter name record).2) := by
  intro step
  cases hname : vfs.registry.lookup? name with
  | some id =>
    have hrun : step.run vfs = _ := run_retain_known hname
    exact .inl ⟨id, rfl, by rw [(run_eq_ok_iff.mp hrun).2]⟩
  | none =>
    refine .inr ⟨rfl, ?_⟩
    cases region with
    | journal =>
      have hrun : step.run vfs = _ := run_retain_alone hname
      obtain ⟨hanswer, hreached⟩ := run_eq_error_iff.mp hrun
      exact .inl ⟨⟨_, hanswer⟩, by rw [hreached]⟩
    | database =>
      have hrun : step.run vfs = _ := run_retain_new hname
      cases hcreate : (createOn own openDevice).run vfs.world with
      | error e world =>
        rw [hcreate] at hrun
        obtain ⟨hanswer, hreached⟩ := run_eq_error_iff.mp hrun
        exact .inl ⟨⟨e, hanswer⟩, by rw [hreached]⟩
      | ok record world =>
        rw [hcreate] at hrun
        obtain ⟨hanswer, hreached⟩ := run_eq_ok_iff.mp hrun
        obtain ⟨hown, -, hdevice⟩ := created_of_createOn hcreate
        exact .inr ⟨_, { record with refs := 1 }, hanswer, hown, Nat.one_pos, hdevice, by rw [hreached]⟩

/-- A blob that is opened apart gets no reference. -/
theorem kept_cases (vfs : Vfs) (own : String) (openDevice : String → StepM World Device) :
    ((Dealing.keeping own openDevice).after vfs).registry = vfs.registry ∨
      ∃ record, record.refs = 0 ∧
        ((Dealing.keeping own openDevice).after vfs).registry = (vfs.registry.keep record).2 := by
  rw [Dealing.after]
  cases hcreate : (createOn own openDevice).run vfs.world with
  | error e world => exact .inl rfl
  | ok record world => exact .inr ⟨record, (created_of_createOn hcreate).2.1, rfl⟩

end Vfs

/-! ## Keeping records findable -/

namespace Registry

variable {registry : Registry} {name : String} {record : BlobRecord}

theorem Leading.lt_size (h : registry.Leading) {id : BlobId} (hname : registry.lookup? name = some id) :
    id < registry.records.size := by
  obtain ⟨record, hrecord, -⟩ := h name id hname
  exact (Array.getElem?_eq_some_iff.mp hrecord).1

theorem leading_empty : empty.Leading := by
  intro name id hname
  simp [empty, lookup?] at hname

theorem findable_empty : empty.Findable := by
  intro id record hrecord
  simp [empty, record?] at hrecord

/-- A record that is changed but for its name and that keeps a reference makes no difference. -/
theorem Leading.modifyRecord (h : registry.Leading) {id : BlobId} {f : BlobRecord → BlobRecord}
    (hf : ∀ record, registry.record? id = some record →
      (f record).name = record.name ∧ 0 < (f record).refs) :
    (registry.modifyRecord id f).Leading := by
  intro name other hname
  obtain ⟨record, hrecord, hrname, hpos⟩ := h name other hname
  by_cases hid : id = other
  · subst hid
    obtain ⟨hsame, hkept⟩ := hf record hrecord
    exact ⟨f record, by rw [record?_modifyRecord, hrecord, Option.map_some], hsame.trans hrname, hkept⟩
  · exact ⟨record, by rwa [record?_modifyRecord_of_ne _ hid], hrname, hpos⟩

theorem Leading.enter (h : registry.Leading) (hname : record.name = name) (hpos : 0 < record.refs) :
    (registry.enter name record).2.Leading := by
  intro other id hother
  rw [lookup?_enter] at hother
  split at hother
  · rename_i heq
    cases hother
    exact ⟨record, by rw [record?_enter, if_pos rfl], hname.trans heq, hpos⟩
  · obtain ⟨r, hr, hrname, hrefs⟩ := h other id hother
    have hold : id ≠ registry.records.size := Nat.ne_of_lt (h.lt_size hother)
    exact ⟨r, by rwa [record?_enter, if_neg hold], hrname, hrefs⟩

/-- A new record is found if it goes by the name it was entered under. -/
theorem Findable.enter_iff (h : registry.Findable) (hleading : registry.Leading)
    (hnew : registry.lookup? name = none) (hpos : 0 < record.refs)
    (hdevice : record.device.isSome = true) :
    (registry.enter name record).2.Findable ↔ record.name = name := by
  constructor
  · intro hfound
    have hrecord : (registry.enter name record).2.record? registry.records.size = some record := by
      rw [record?_enter, if_pos rfl]
    have hname := (hfound _ record hrecord hpos).1
    rw [lookup?_enter] at hname
    split at hname
    · exact Eq.symm ‹_›
    · exact absurd (hleading.lt_size hname) (Nat.lt_irrefl _)
  · rintro rfl id r hr hrefs
    rw [record?_enter] at hr
    rw [lookup?_enter]
    split at hr
    · rename_i hid
      cases hr
      exact ⟨by rw [if_pos rfl, hid], hdevice⟩
    · obtain ⟨hname, hthere⟩ := h id r hr hrefs
      refine ⟨?_, hthere⟩
      rw [if_neg, hname]
      intro heq
      rw [heq, hname] at hnew
      cases hnew

theorem record?_keep (registry : Registry) (record : BlobRecord) (id : BlobId) :
    (registry.keep record).2.record? id =
      if id = registry.records.size then some record else registry.record? id := by
  simp [Registry.record?, keep, Array.getElem?_push]

theorem Leading.keep (h : registry.Leading) (record : BlobRecord) :
    (registry.keep record).2.Leading := by
  intro name id hname
  obtain ⟨r, hr, hfound⟩ := h name id hname
  have hold : id ≠ registry.records.size := Nat.ne_of_lt (h.lt_size hname)
  exact ⟨r, by rwa [record?_keep, if_neg hold], hfound⟩

theorem Findable.keep (h : registry.Findable) (hzero : record.refs = 0) :
    (registry.keep record).2.Findable := by
  intro id r hr hpos
  rw [record?_keep] at hr
  split at hr
  · cases hr
    omega
  · exact h id r hr hpos

theorem Findable.retain (h : registry.Findable) (hleading : registry.Leading) {id : BlobId}
    (hname : registry.lookup? name = some id) :
    (registry.modifyRecord id fun r => { r with refs := r.refs + 1 }).Findable := by
  intro other record hrecord hpos
  by_cases hid : id = other
  · subst hid
    obtain ⟨r, hr, hrname, hrefs⟩ := hleading name id hname
    rw [record?_modifyRecord, hr] at hrecord
    cases hrecord
    exact h id r hr hrefs
  · rw [record?_modifyRecord_of_ne _ hid] at hrecord
    exact h other record hrecord hpos

end Registry

/-! ## Dealings one after the other -/

namespace Dealing

variable {vfs : Vfs}

theorem leading_released (h : vfs.registry.Leading) (id : BlobId) :
    ((relinquish id).reached vfs).registry.Leading := by
  cases hrecord : vfs.registry.record? id with
  | none => rwa [released_absent hrecord]
  | some record =>
    intro name other hname
    rw [lookup?_released hrecord] at hname
    split at hname
    · cases hname
    · rename_i hkept
      obtain ⟨r, hr, hrname, hpos⟩ := h name other hname
      by_cases hother : other = id
      · -- the record kept its name, so it keeps a reference
        subst hother
        cases hrecord.symm.trans hr
        have hmore : 0 < record.refs - 1 := by
          have : ¬ record.refs ≤ 1 := fun hlast => hkept ⟨hlast, hrname⟩
          omega
        have hreleased := @record?_released vfs other
        rw [hrecord, Option.map_some] at hreleased
        exact ⟨_, hreleased, hrname, hmore⟩
      · exact ⟨r, by rwa [record?_released_of_ne hother], hrname, hpos⟩

/-- A release keeps records findable exactly if it spares the names of the others. -/
theorem findable_released_iff (hleading : vfs.registry.Leading) (h : vfs.registry.Findable)
    (id : BlobId) :
    ((relinquish id).reached vfs).registry.Findable ↔ vfs.registry.Spares id := by
  cases hrecord : vfs.registry.record? id with
  | none =>
    rw [released_absent hrecord]
    refine ⟨fun _ record other hr => ?_, fun _ => h⟩
    cases hrecord.symm.trans hr
  | some record =>
    constructor
    · intro hfound r other hr hlast hname
      cases hrecord.symm.trans hr
      by_contra hother
      -- the other record is still in use, and its name is gone
      obtain ⟨found, hfoundRecord, hsame, hpos⟩ := hleading _ other hname
      have hstill := (hfound other found (by rwa [record?_released_of_ne hother]) hpos).1
      rw [lookup?_released hrecord, if_pos ⟨hlast, hsame.symm⟩] at hstill
      cases hstill
    · intro hspares other r hr hpos
      by_cases hother : other = id
      · subst hother
        rw [record?_released, hrecord] at hr
        cases hr
        dsimp only at hpos ⊢
        obtain ⟨hname, hdevice⟩ := h other record hrecord (by omega)
        rw [lookup?_released hrecord, if_neg (fun hlast => by omega), if_neg (by omega)]
        exact ⟨hname, hdevice⟩
      · rw [record?_released_of_ne hother] at hr
        obtain ⟨hname, hdevice⟩ := h other r hr hpos
        refine ⟨?_, hdevice⟩
        rw [lookup?_released hrecord, if_neg, hname]
        rintro ⟨hlast, hsame⟩
        exact hother (hspares record other hrecord hlast (hsame ▸ hname))

theorem leading_after (h : vfs.registry.Leading) (dealing : Dealing) (hfair : dealing.Fair vfs) :
    (dealing.after vfs).registry.Leading := by
  cases dealing with
  | acquiring name region own openDevice =>
    rw [after]
    rcases acquired_cases vfs name own region openDevice with
      ⟨id, hname, hreached⟩ | ⟨hname, ⟨-, hreached⟩ | ⟨id, record, hanswer, hown, hpos, -, hreached⟩⟩
    · rw [hreached]
      exact h.modifyRecord fun record _ => ⟨rfl, Nat.succ_pos _⟩
    · rwa [hreached]
    · rw [hreached]
      exact h.enter (hown.trans (hfair hname id hanswer)) hpos
  | keeping own openDevice =>
    rcases kept_cases vfs own openDevice with hreached | ⟨record, -, hreached⟩
    · rwa [hreached]
    · rw [hreached]
      exact h.keep record
  | finding name => exact h
  | releasing id => exact leading_released h id
  | meanwhile change => exact h

/-- A dealing keeps records findable exactly if it is fair. -/
theorem findable_after_iff (hleading : vfs.registry.Leading) (h : vfs.registry.Findable)
    (dealing : Dealing) : (dealing.after vfs).registry.Findable ↔ dealing.Fair vfs := by
  cases dealing with
  | acquiring name region own openDevice =>
    rw [after, Fair]
    rcases acquired_cases vfs name own region openDevice with
      ⟨id, hname, hreached⟩ |
        ⟨hname, ⟨⟨e, hanswer⟩, hreached⟩ | ⟨id, record, hanswer, rfl, hpos, hdevice, hreached⟩⟩
    · rw [hreached, hname]
      exact ⟨fun _ hnone => (by cases hnone), fun _ => h.retain hleading hname⟩
    · rw [hreached, hanswer]
      exact ⟨fun _ _ id hok => (by cases hok), fun _ => h⟩
    · rw [hreached, h.enter_iff hleading hname hpos hdevice, hanswer]
      exact ⟨fun hsame _ _ _ => hsame, fun hfair => hfair hname id rfl⟩
  | keeping own openDevice =>
    refine ⟨fun _ => trivial, fun _ => ?_⟩
    rcases kept_cases vfs own openDevice with hreached | ⟨record, hzero, hreached⟩
    · rwa [hreached]
    · rw [hreached]
      exact h.keep hzero
  | finding name => exact ⟨fun _ => trivial, fun _ => h⟩
  | releasing id => exact findable_released_iff hleading h id
  | meanwhile change => exact ⟨fun _ => trivial, fun _ => h⟩

/-! ### Media that were never there -/

theorem run_mount_fresh {world : World} {medium : String} (name : String)
    (h : world.medium medium = .growable) :
    (Blob.mount name : StepM Attached Partition).run ⟨some (.ram medium), world⟩ =
      .ok (.blank standardCapacity) ⟨some (.ram medium), world.setMedium medium .materialised⟩ := by
  have hempty : Disk.length (⟨some (.ram medium), world⟩ : Attached) = 0 := by
    show (world.medium medium).image.size = 0
    rw [h]
    rfl
  have hwrite : (Disk.write (standardCapacity - 1) #[0] : StepM RamDisk Unit).run .growable =
      .ok () .materialised := rfl
  have hcall : (Disk.write (standardCapacity - 1) #[0] : StepM Attached Unit).run
      ⟨some (.ram medium), world⟩ =
        .ok () ⟨some (.ram medium), world.setMedium medium .materialised⟩ := by
    show (Attached.focusRam medium (Disk.write (standardCapacity - 1) #[0])).run _ = _
    rw [Attached.focusRam, run_focus, h, hwrite]
  simp [Blob.mount, Blob.readPartition, hempty, hcall, -bind_pure_comp]

/-- A blob is acquired on a medium that was never there. -/
theorem after_acquiring_fresh {name medium : String} (hnew : vfs.registry.lookup? name = none)
    (hfresh : vfs.world.medium medium = .growable) :
    (acquiring name .database name fun _ => pure (.ram medium)).after vfs =
      ⟨(vfs.registry.enter name ⟨name, some (.ram medium), .blank standardCapacity, 1⟩).2,
        vfs.world.setMedium medium .materialised⟩ := by
  have hcreate : (createOn name fun _ => pure (.ram medium)).run vfs.world =
      .ok ⟨name, some (.ram medium), .blank standardCapacity, 0⟩
        (vfs.world.setMedium medium .materialised) := by
    simp [createOn, openBlob, Attached.through, run_mount_fresh name hfresh, -bind_pure_comp]
  have hrun := @run_retain_new _ _ name vfs (fun _ => createOn name fun _ => pure (.ram medium)) hnew
  rw [hcreate] at hrun
  exact (run_eq_ok_iff.mp hrun).2

/-- A release closes one medium at most. -/
theorem medium_released {id : BlobId} {record : BlobRecord} {medium other : String}
    (hrecord : vfs.registry.record? id = some record) (hdevice : record.device = some (.ram medium))
    (hother : medium ≠ other) :
    ((relinquish id).reached vfs).world.medium other = vfs.world.medium other := by
  rw [reached_relinquish hrecord]
  split
  · have hclose : (Disk.close : StepM Attached Unit) = Attached.call Disk.close Disk.close := rfl
    have hfocus : (Disk.close : StepM Attached Unit).reached (attached record vfs) =
        (Attached.focusRam medium Disk.close).reached (attached record vfs) :=
      reached_of_run_eq (by simp [hclose, Attached.call, attached, hdevice])
    rw [hfocus, Attached.focusRam, reached_focus]
    exact (World.medium_setMedium ..).trans (if_neg hother)
  · rfl

/-! ### Runs -/

/-- After any dealings: a release changes no other record, of its own only the references and the
device, and no byte of a medium or a file. It takes a name off another record exactly if the
record's own name leads there and it has one reference at most. Every record in use is found under
its name, with its device there, throughout the dealings exactly as long as every one is fair; and
as long as that is so, what is unfair is to release a record without references whose name was
taken since. -/
theorem releases_spare_others_iff (world : World) (dealings : List Dealing) :
    let start : Vfs := ⟨.empty, world⟩
    let vfs := start.deal dealings
    (∀ id,
      let after := (relinquish id).reached vfs
      (∀ other, other ≠ id → after.registry.record? other = vfs.registry.record? other) ∧
      (after.registry.record? id = (vfs.registry.record? id).map fun record =>
        { record with
          refs := record.refs - 1
          device := if record.refs - 1 = 0 then none else record.device }) ∧
      (∀ origin, after.world.contents origin = vfs.world.contents origin) ∧
      ((∀ name other, vfs.registry.lookup? name = some other → other ≠ id →
        after.registry.lookup? name = some other) ↔ vfs.registry.Spares id)) ∧
    ((∀ before, before <+: dealings → (start.deal before).registry.Findable) ↔
      ∀ before dealing rest, dealings = before ++ dealing :: rest →
        dealing.Fair (start.deal before)) ∧
    ((∀ before dealing rest, dealings = before ++ dealing :: rest →
        dealing.Fair (start.deal before)) →
      ∀ id record, vfs.registry.record? id = some record →
        (vfs.registry.Spares id ↔
          (record.refs = 0 → vfs.registry.lookup? record.name = none))) := by
  intro start vfs
  have hempty : start.registry.Leading ∧ start.registry.Findable :=
    ⟨Registry.leading_empty, Registry.findable_empty⟩
  have hboth : ∀ (vfs : Vfs) (dealing : Dealing), vfs.registry.Leading ∧ vfs.registry.Findable →
      ((dealing.after vfs).registry.Leading ∧ (dealing.after vfs).registry.Findable ↔
        dealing.Fair vfs) := fun vfs dealing h =>
    ⟨fun hafter => (findable_after_iff h.1 h.2 dealing).mp hafter.2, fun hfair =>
      ⟨leading_after h.1 dealing hfair, (findable_after_iff h.1 h.2 dealing).mpr hfair⟩⟩
  refine ⟨fun id => ⟨fun other hother => record?_released_of_ne hother, record?_released id,
    contents_released id, names_released_iff id⟩, ?_, fun hfair id record hrecord => ?_⟩
  · exact throughout_iff (P := fun vfs : Vfs => vfs.registry.Findable)
      (fun vfs dealing hleading _ hfair => leading_after hleading dealing hfair)
      (fun vfs dealing hleading h => findable_after_iff hleading h dealing) hempty.1 hempty.2 dealings
  · obtain ⟨hleading, hfindable⟩ :=
      (throughout_iff (P := fun vfs : Vfs => vfs.registry.Leading ∧ vfs.registry.Findable)
        (fun vfs dealing h _ hfair => (hboth vfs dealing h).mpr hfair)
        (fun vfs dealing _ h => hboth vfs dealing h) hempty hempty dealings).mpr hfair dealings
        (List.prefix_refl _)
    exact hfindable.spares_iff hleading hrecord

/-- Of two blobs that were acquired the first is released: it has no reference and no device any
more, and the other one is found as before. -/
theorem releases_spare_others_two_blobs :
    let vfs := (⟨.empty, .initial⟩ : Vfs).deal
      [.acquiring "a" .database "a" fun _ => pure (.ram "m"),
        .acquiring "b" .database "b" fun _ => pure (.ram "n")]
    let after := (relinquish 0).reached vfs
    (∃ record, after.registry.record? 0 = some record ∧ record.refs = 0 ∧ record.device = none) ∧
      after.registry.lookup? "b" = some 1 ∧
      after.registry.record? 1 = vfs.registry.record? 1 ∧
      (∃ record, after.registry.record? 1 = some record ∧ record.device.isSome = true) := by
  intro vfs after
  obtain ⟨hothers, hown, -, hnames⟩ := (releases_spare_others_iff .initial
    [.acquiring "a" .database "a" fun _ => pure (.ram "m"),
      .acquiring "b" .database "b" fun _ => pure (.ram "n")]).1 0
  have hfirst : (vfs.registry.record? 0).map (fun record => (record.name, record.refs)) =
      some ("a", 1) := by decide +kernel
  have hsecond : (vfs.registry.record? 1).any (fun record => record.device.isSome) = true := by
    decide +kernel
  obtain ⟨record, hrecord, hname⟩ := Option.map_eq_some_iff.mp hfirst
  obtain ⟨hname, hrefs⟩ := Prod.mk.inj hname
  have hspares : vfs.registry.Spares 0 := by
    intro other id hother _ hlookup
    cases hrecord.symm.trans hother
    rw [hname] at hlookup
    have hleads : vfs.registry.lookup? "a" = some 0 := by decide +kernel
    exact Option.some.inj (hlookup.symm.trans hleads)
  have hsame : after.registry.record? 1 = vfs.registry.record? 1 := hothers 1 (by decide)
  refine ⟨⟨_, hown.trans (congrArg (Option.map _) hrecord), ?_, ?_⟩,
    hnames.mpr hspares "b" 1 (by decide +kernel) (by decide), hsame, ?_⟩
  · show record.refs - 1 = 0
    rw [hrefs]
  · show (if record.refs - 1 = 0 then none else record.device) = none
    rw [hrefs, if_pos rfl]
  · rw [hsame]
    exact (Option.any_eq_true _ _).mp hsecond

/-- A record that was released is released once more when its name was acquired again: the record
of that acquisition has its reference and its device, and is not found any more. -/
theorem second_release_hides_reopened :
    let start : Vfs := ⟨.empty, .initial⟩
    let vfs := start.deal
      [.acquiring "a" .database "a" fun _ => pure (.ram "m"), .releasing 0,
        .acquiring "a" .database "a" fun _ => pure (.ram "n"), .releasing 0]
    vfs.registry.lookup? "a" = none ∧
      ∃ id record, vfs.registry.record? id = some record ∧ record.name = "a" ∧ record.refs = 1 ∧
        record.device = some (.ram "n") := by
  intro start vfs
  let first := (acquiring "a" .database "a" fun _ => pure (.ram "m")).after start
  let released := (relinquish 0).reached first
  let second := (acquiring "a" .database "a" fun _ => pure (.ram "n")).after released
  have hfirst : first = _ :=
    @after_acquiring_fresh start "a" "m" (lookup?_initial "a") (medium_initial "m")
  have hold : first.registry.record? 0 =
      some ⟨"a", some (.ram "m"), .blank standardCapacity, 1⟩ := by
    rw [hfirst]
    exact record?_enter ..
  have hnone : released.registry.lookup? "a" = none := by
    rw [lookup?_released hold, if_pos ⟨Nat.le_refl 1, rfl⟩]
  have hfresh : released.world.medium "n" = .growable := by
    rw [medium_released hold rfl (by decide), hfirst]
    exact (World.medium_setMedium ..).trans ((if_neg (by decide)).trans (medium_initial "n"))
  have hsecond : second = _ := after_acquiring_fresh hnone hfresh
  have hgone : released.registry.record? 0 =
      some ⟨"a", none, .blank standardCapacity, 0⟩ := by
    rw [record?_released, hold]
    rfl
  have hzero : released.registry.records.size ≠ 0 :=
    Nat.ne_of_gt (Array.getElem?_eq_some_iff.mp hgone).1
  have hstill : second.registry.record? 0 = some ⟨"a", none, .blank standardCapacity, 0⟩ := by
    rw [hsecond]
    exact (record?_enter ..).trans ((if_neg hzero.symm).trans hgone)
  have hnew : second.registry.record? released.registry.records.size =
      some ⟨"a", some (.ram "n"), .blank standardCapacity, 1⟩ := by
    rw [hsecond]
    exact (record?_enter ..).trans (if_pos rfl)
  show ((relinquish 0).reached second).registry.lookup? "a" = none ∧
    ∃ id record, ((relinquish 0).reached second).registry.record? id = some record ∧ _
  refine ⟨?_, _, _, (record?_released_of_ne hzero).trans hnew, rfl, rfl, rfl⟩
  rw [lookup?_released hstill, if_pos ⟨Nat.zero_le 1, rfl⟩]

end Dealing

end TwinRegion
