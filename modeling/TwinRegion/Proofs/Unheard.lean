/-
TwinRegion.Proofs.Unheard — a file system does not notice that it is listened to.

With the numbers of the devices and the lists of their calls taken away
(`Vfs.plain`), a file system in an overheard world is one in the plain
world, and everything that can be done to it goes alike there: a request
(`alike_perform_plain`), an opening (`alike_openVia_plain`) and a closing
(`reached_close_plain`).
-/
import TwinRegion.Proofs.Overheard
import TwinRegion.Proofs.Records

namespace TwinRegion

open StepM

/-! ## Records -/

def BlobRecord.plain (record : BlobRecord Tagged) : BlobRecord :=
  ⟨record.name, record.device.map Tagged.device, record.partition, record.refs⟩

namespace Registry

def plain (registry : Registry Tagged) : Registry :=
  ⟨registry.records.map BlobRecord.plain, registry.names⟩

variable (registry : Registry Tagged)

theorem lookup?_plain (name : String) : registry.plain.lookup? name = registry.lookup? name := rfl

theorem record?_plain (id : BlobId) :
    registry.plain.record? id = (registry.record? id).map BlobRecord.plain := by
  simp [record?, plain]

theorem size_plain : registry.plain.records.size = registry.records.size := by
  simp [plain]

/-- A change that does not look at the numbers is the same change without them. -/
theorem plain_modifyRecord (id : BlobId) {f : BlobRecord Tagged → BlobRecord Tagged}
    {g : BlobRecord → BlobRecord} (h : ∀ record, (f record).plain = g record.plain) :
    (registry.modifyRecord id f).plain = registry.plain.modifyRecord id g := by
  have hrecords : (registry.records.modify id f).map BlobRecord.plain =
      (registry.records.map BlobRecord.plain).modify id g := by
    apply Array.ext_getElem?
    intro other
    simp only [Array.getElem?_map, Array.getElem?_modify]
    split
    · rw [Option.map_map, Option.map_map]
      exact congrFun (congrArg Option.map (funext h)) _
    · rfl
  rw [plain, modifyRecord, hrecords, modifyRecord, plain]

theorem plain_enter (name : String) (record : BlobRecord Tagged) :
    (registry.enter name record).2.plain = (registry.plain.enter name record.plain).2 := by
  simp [enter, keep, plain]

end Registry

namespace Vfs

/-- The file system without the numbers of its devices, in the world without the lists. -/
def plain (vfs : Vfs Tagged Overheard) : Vfs := ⟨vfs.registry.plain, vfs.world.world⟩

/-- The same file system, once listened to and once not. -/
def Unheard (heard : Vfs Tagged Overheard) (vfs : Vfs) : Prop := heard.plain = vfs

variable {heard : Vfs Tagged Overheard} {vfs : Vfs} {α : Type}

theorem plain_attached (record : BlobRecord Tagged) (heard : Vfs Tagged Overheard) :
    (attached record heard).plain = attached record.plain heard.plain := rfl

/-! ## Requests -/

theorem alike_onBlob_plain {far : Partition → StepM (Attached Tagged Overheard) α}
    {near : Partition → StepM Attached α} (id : BlobId)
    (hstep : ∀ partition a b, Attached.plain a = b →
      Alike (fun a b => Attached.plain a = b) (far partition) a (near partition) b)
    (h : Unheard heard vfs) : Alike Unheard (onBlob id far) heard (onBlob id near) vfs := by
  obtain rfl := h
  cases hrecord : heard.registry.record? id with
  | none =>
    have hplain : heard.plain.registry.record? id = none := by
      rw [plain, Registry.record?_plain, hrecord, Option.map_none]
    exact .error (run_onBlob_absent far hrecord) (run_onBlob_absent near hplain) rfl
  | some record =>
    have hplain : heard.plain.registry.record? id = some record.plain := by
      rw [plain, Registry.record?_plain, hrecord, Option.map_some]
    have hfocus : Alike Unheard
        (StepM.focus (attached record) (setAttached id) (far record.partition)) heard
        (StepM.focus (attached record.plain) (setAttached id) (near record.partition))
        heard.plain := by
      refine (hstep record.partition _ _ (plain_attached record heard)).focus fun a b hab => ?_
      obtain rfl := hab
      rw [Unheard, plain, setAttached, Registry.plain_modifyRecord]
      · rfl
      · exact fun _ => rfl
    exact hfocus.of_run_eq (run_onBlob far hrecord) (run_onBlob near hplain)

theorem alike_setPartition_plain (id : BlobId) (partition : Partition) (h : Unheard heard vfs) :
    Alike Unheard (setPartition id partition) heard (setPartition id partition) vfs := by
  obtain rfl := h
  refine .ok rfl rfl ?_
  rw [Unheard, plain, Registry.plain_modifyRecord]
  · rfl
  · exact fun _ => rfl

theorem alike_partition_plain (handle : Handle) (h : Unheard heard vfs) :
    Alike Unheard (Vfs.partition handle) heard (Vfs.partition handle) vfs := by
  obtain rfl := h
  cases hrecord : heard.registry.record? handle.blob with
  | none =>
    have hplain : heard.plain.registry.record? handle.blob = none := by
      rw [plain, Registry.record?_plain, hrecord, Option.map_none]
    have hrefused {D W : Type} {vfs : Vfs D W} (hnone : vfs.registry.record? handle.blob = none) :
        (Vfs.partition handle).run vfs = .error (.refused .detached) vfs := by
      simp only [Vfs.partition, Vfs.record, EStateM.run_bind, EStateM.run_get, hnone, run_refuse]
    exact .error (hrefused hrecord) (hrefused hplain) rfl
  | some record =>
    have hplain : heard.plain.registry.record? handle.blob = some record.plain := by
      rw [plain, Registry.record?_plain, hrecord, Option.map_some]
    have hfound {D W : Type} {vfs : Vfs D W} {record : BlobRecord D}
        (hsome : vfs.registry.record? handle.blob = some record) :
        (Vfs.partition handle).run vfs = .ok record.partition vfs := by
      simp only [Vfs.partition, Vfs.record, EStateM.run_bind, EStateM.run_get, hsome,
        EStateM.run_pure]
    exact .ok (hfound hrecord) (hfound hplain) rfl

theorem alike_eraseJournal_plain (id : BlobId) (h : Unheard heard vfs) :
    Alike Unheard (eraseJournal id) heard (eraseJournal id) vfs :=
  (alike_onBlob_plain id (fun partition _ _ hab =>
    Blob.alike_eraseJournal Attached.matches_plain.writes partition hab) h).bind
    fun partition _ _ h => alike_setPartition_plain id partition h

theorem alike_remove_plain (path : String) (h : Unheard heard vfs) :
    Alike Unheard (remove path) heard (remove path) vfs := by
  unfold remove
  cases splitJournalName path with
  | mk name journal =>
    cases journal with
    | false => exact .pure h
    | true =>
      refine .get_bind ?_
      obtain rfl := h
      rw [plain, Registry.lookup?_plain]
      cases heard.registry.lookup? name with
      | none => exact .pure rfl
      | some id => exact alike_eraseJournal_plain id rfl

/-- A request goes the same whether anyone listens or not. -/
theorem alike_perform_plain (request : Request) (h : Unheard heard vfs) :
    Alike Unheard request.perform heard request.perform vfs := by
  cases request with
  | read handle offset len =>
    exact alike_onBlob_plain handle.blob (fun partition _ _ hab =>
      Blob.alike_read Attached.matches_plain partition handle.region offset len hab) h
  | write handle offset data =>
    refine Alike.bind ?_ fun _ _ _ h => .pure h
    exact (alike_onBlob_plain handle.blob (fun partition _ _ hab =>
      Blob.alike_write Attached.matches_plain.writes partition handle.region offset data hab) h).bind
      fun partition _ _ h => alike_setPartition_plain handle.blob partition h
  | truncate handle size =>
    refine Alike.bind ?_ fun _ _ _ h => .pure h
    exact (alike_partition_plain handle h).bind
      fun partition _ _ h => alike_setPartition_plain handle.blob _ h
  | sync handle flags =>
    refine Alike.bind ?_ fun _ _ _ h => .pure h
    exact alike_onBlob_plain handle.blob (fun partition _ _ hab =>
      Blob.alike_sync Attached.matches_plain.writes partition handle.region flags hab) h
  | remove path => exact (alike_remove_plain path h).bind fun _ _ _ h => .pure h
  | setFaults medium faults =>
    obtain rfl := h
    exact .ok rfl rfl rfl

/-! ## Openings and closings -/

/-- An opening goes the same if the device that it is given is listened to. -/
theorem alike_openVia_plain (path : String) (region : Region)
    (openDevice : String → StepM World Device) (h : Unheard heard vfs) :
    Alike Unheard (openVia path region fun name => Overheard.give (openDevice name)) heard
      (openVia path region openDevice) vfs := by
  obtain rfl := h
  cases hname : heard.registry.lookup? (blobName path region) with
  | some id =>
    have hplain : heard.plain.registry.lookup? (blobName path region) = some id := hname
    refine .ok (openVia_known hname) (openVia_known hplain) ?_
    rw [Unheard, plain, Registry.plain_modifyRecord]
    · rfl
    · exact fun _ => rfl
  | none =>
    have hplain : heard.plain.registry.lookup? (blobName path region) = none := hname
    cases region with
    | journal => exact .error (openVia_alone hname) (openVia_alone hplain) rfl
    | database =>
      have hfar := @openVia_new _ _ path _ heard (fun name => Overheard.give (openDevice name)) hname
      have hnear := @openVia_new _ _ path _ heard.plain openDevice hplain
      rw [Overheard.run_give] at hfar
      cases hdevice : (openDevice path).run heard.world.world with
      | error e world =>
        rw [hdevice] at hfar
        rw [show heard.plain.world = heard.world.world from rfl, hdevice] at hnear
        exact .error hfar hnear rfl
      | ok device world =>
        rw [hdevice] at hfar
        rw [show heard.plain.world = heard.world.world from rfl, hdevice] at hnear
        dsimp only at hfar hnear
        have hmount := Blob.alike_mount Attached.matches_plain Attached.alike_close_plain path
          (show Attached.plain ⟨some ⟨heard.world.given, device⟩,
            { heard.world with world := world, given := heard.world.given + 1 }⟩ =
              ⟨some device, world⟩ from rfl)
        cases hmount with
        | @ok partition a b hfarMount hnearMount hab =>
          obtain rfl := hab
          rw [hfarMount] at hfar
          rw [hnearMount] at hnear
          have hnumber : heard.plain.registry.records.size = heard.registry.records.size :=
            Registry.size_plain _
          dsimp only at hfar hnear
          rw [hnumber] at hnear
          refine .ok hfar hnear ?_
          rw [Unheard, plain, Registry.plain_enter]
          rfl
        | error hfarMount hnearMount hab =>
          obtain rfl := hab
          rw [hfarMount] at hfar
          rw [hnearMount] at hnear
          exact .error hfar hnear rfl

/-- So does a closing. -/
theorem reached_close_plain (handle : Handle) (heard : Vfs Tagged Overheard) :
    ((Vfs.close handle).reached heard).plain = (Vfs.close handle).reached heard.plain := by
  cases hrecord : heard.registry.record? handle.blob with
  | none =>
    have hplain : heard.plain.registry.record? handle.blob = none := by
      rw [plain, Registry.record?_plain, hrecord, Option.map_none]
    rw [close_reached_absent hrecord, close_reached_absent hplain]
  | some record =>
    have hplain : heard.plain.registry.record? handle.blob = some record.plain := by
      rw [plain, Registry.record?_plain, hrecord, Option.map_some]
    rw [close_reached hrecord, close_reached hplain]
    by_cases hlast : record.refs - 1 = 0
    · have hclose := (Attached.alike_close_plain (plain_attached record heard)).reached_rel
      have hregistry : (heard.registry.modifyRecord handle.blob fun r =>
          { r with refs := 0, device := none }).plain =
          heard.plain.registry.modifyRecord handle.blob fun r => { r with refs := 0, device := none } :=
        Registry.plain_modifyRecord _ _ fun _ => rfl
      rw [if_pos hlast, if_pos (show record.plain.refs - 1 = 0 from hlast), ← hclose, ← hregistry]
      rfl
    · rw [if_neg hlast, if_neg (show ¬ record.plain.refs - 1 = 0 from hlast), plain,
        Registry.plain_modifyRecord]
      · rfl
      · exact fun _ => rfl

end Vfs

end TwinRegion
