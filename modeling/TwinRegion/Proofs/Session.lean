/-
TwinRegion.Proofs.Session — handles are counted.

A session is a file system with the handles that were given out on it
(`Grant`), whatever its devices and its world are. A `Deed` is one thing
that users do, or that happens to the world; a handle that was given back
is not given back again.

`Orderly` is what every deed preserves (`orderly_after`): a record counts
the handles on it that are out, and as long as there are any it is open
under its name and its device is there. What becomes of the devices is told
in `Proofs.Lifetime`.
-/
import TwinRegion.Proofs.Records

namespace TwinRegion

open StepM Vfs

/-- A handle that was given out, the name of its blob, and whether it was given back. -/
structure Grant where
  name : String
  handle : Handle
  closed : Bool

/-- A file system and its users. -/
structure Session (D : Type := Device) (W : Type := World) where
  vfs : Vfs D W
  /-- Every handle that was given out, oldest first. -/
  grants : List Grant

/-- What the users of a file system do, and what happens to the world meanwhile. -/
inductive Deed (D : Type := Device) (W : Type := World) where
  | opening (path : String) (region : Region) (openDevice : String → StepM W D)
  | asking (request : Request)
  /-- Gives back the handle that was given out under this number. -/
  | closing (number : Nat)
  | meanwhile (change : W → W)

namespace Session

/-- A session in which nothing was done yet. -/
def start (world : World) : Session := ⟨⟨.empty, world⟩, []⟩

variable {D W : Type}

/-! ## Order -/

/-- How many handles on a record are out. -/
def holders (s : Session D W) (id : BlobId) : Nat :=
  s.grants.countP fun grant => !grant.closed && grant.handle.blob == id

/-- A record counts the handles on it, and while there are any it is open under its name, with
its device there. -/
structure Kept (s : Session D W) (id : BlobId) (record : BlobRecord D) : Prop where
  refs_eq : record.refs = s.holders id
  held_iff : record.device.isSome = true ↔ 0 < record.refs
  named : 0 < record.refs → s.vfs.registry.lookup? record.name = some id

/-- Every record is kept, and handles and names lead to records of that name. -/
structure Orderly (s : Session D W) : Prop where
  kept : ∀ id record, s.vfs.registry.record? id = some record → s.Kept id record
  granted : ∀ grant ∈ s.grants, ∃ record,
    s.vfs.registry.record? grant.handle.blob = some record ∧ record.name = grant.name
  leads : ∀ name id, s.vfs.registry.lookup? name = some id → ∃ record,
    s.vfs.registry.record? id = some record ∧ record.name = name ∧ 0 < record.refs

theorem orderly_start (world : World) : (start world).Orderly where
  kept _ _ h := by simp [start, Registry.empty, Registry.record?] at h
  granted _ h := by cases h
  leads _ _ h := by simp [start, Registry.empty, Registry.lookup?] at h

variable {s : Session D W}

/-- A record that is open under a name is held. -/
theorem Orderly.refs_pos (h : s.Orderly) {name : String} {id : BlobId} {record : BlobRecord D}
    (hrecord : s.vfs.registry.record? id = some record)
    (hname : s.vfs.registry.lookup? name = some id) : 0 < record.refs := by
  obtain ⟨other, hother, -, hpos⟩ := h.leads name id hname
  cases hrecord.symm.trans hother
  exact hpos

/-- Order is a matter of the records, not of the world. -/
theorem Orderly.of_registry (h : s.Orderly) {vfs : Vfs D W}
    (hregistry : vfs.registry = s.vfs.registry) : ({ s with vfs := vfs } : Session D W).Orderly := by
  obtain ⟨registry, world⟩ := vfs
  obtain rfl : registry = s.vfs.registry := hregistry
  refine ⟨fun id record hrecord => ?_, h.granted, h.leads⟩
  obtain ⟨hrefs, hheld, hnamed⟩ := h.kept id record hrecord
  exact ⟨hrefs, hheld, hnamed⟩

/-! ### One record -/

/-- Between two sessions one record has become `next`, and given up its name if nobody holds it
any more; there is nothing else to tell, except of this record and its holders. -/
structure Touches (s s' : Session D W) (id : BlobId) (next : BlobRecord D) : Prop where
  own : s'.vfs.registry.record? id = some next
  other : ∀ other, id ≠ other → s'.vfs.registry.record? other = s.vfs.registry.record? other ∧
    s'.holders other = s.holders other
  names : ∀ name other, s'.vfs.registry.lookup? name = some other ↔
    s.vfs.registry.lookup? name = some other ∧ (id = other → 0 < next.refs)
  granted : ∀ grant ∈ s'.grants, ∃ record,
    s.vfs.registry.record? grant.handle.blob = some record ∧ record.name = grant.name

/-- A deed about one record need only keep that one. -/
theorem Orderly.of_touches {s' : Session D W} {id : BlobId} {record next : BlobRecord D}
    (h : s.Orderly) (hrecord : s.vfs.registry.record? id = some record)
    (hname : next.name = record.name) (htouches : s.Touches s' id next) (hkept : s'.Kept id next) :
    s'.Orderly := by
  have hlater : ∀ other r, s.vfs.registry.record? other = some r → ∃ r',
      s'.vfs.registry.record? other = some r' ∧ r'.name = r.name := by
    intro other r hr
    by_cases hid : id = other
    · subst hid
      cases hrecord.symm.trans hr
      exact ⟨next, htouches.own, hname⟩
    · exact ⟨r, (htouches.other other hid).1.trans hr, rfl⟩
  constructor
  · intro other r hr
    by_cases hid : id = other
    · subst hid
      cases htouches.own.symm.trans hr
      exact hkept
    · obtain ⟨hsame, hholders⟩ := htouches.other other hid
      rw [hsame] at hr
      have hold := h.kept other r hr
      refine ⟨hold.refs_eq.trans hholders.symm, hold.held_iff, fun hpos => ?_⟩
      exact (htouches.names _ _).mpr ⟨hold.named hpos, fun heq => absurd heq hid⟩
  · intro grant hgrant
    obtain ⟨r, hr, hgranted⟩ := htouches.granted grant hgrant
    obtain ⟨r', hr', hrname⟩ := hlater _ r hr
    exact ⟨r', hr', hrname.trans hgranted⟩
  · intro name other hnamed
    obtain ⟨hbefore, hpos⟩ := (htouches.names name other).mp hnamed
    obtain ⟨r, hr, hrname, hrefs⟩ := h.leads name other hbefore
    by_cases hid : id = other
    · subst hid
      cases hrecord.symm.trans hr
      exact ⟨next, htouches.own, hname.trans hrname, hpos rfl⟩
    · exact ⟨r, (htouches.other other hid).1.trans hr, hrname, hrefs⟩

/-! ### Handles given back -/

section closing

variable {number : Nat} {name : String} {handle : Handle} {record : BlobRecord D}

/-- A handle that is given back is one fewer on its record, and as many on every other. -/
theorem holders_closing (hgrant : s.grants[number]? = some ⟨name, handle, false⟩)
    {s' : Session D W} (hgrants : s'.grants = s.grants.set number ⟨name, handle, true⟩)
    (id : BlobId) : s'.holders id = s.holders id - if handle.blob = id then 1 else 0 := by
  obtain ⟨hlt, hget⟩ := List.getElem?_eq_some_iff.mp hgrant
  rw [holders, hgrants, List.countP_set hlt, hget, holders]
  by_cases hid : handle.blob = id <;> simp [hid]

theorem holders_pos (hgrant : s.grants[number]? = some ⟨name, handle, false⟩) :
    0 < s.holders handle.blob := by
  obtain ⟨hlt, hget⟩ := List.getElem?_eq_some_iff.mp hgrant
  exact List.countP_pos_iff.mpr ⟨_, hget ▸ List.getElem_mem hlt, by simp⟩

/-- The last reference takes the name and the device with it. -/
theorem Orderly.names_unname (h : s.Orderly) {id : BlobId}
    (hrecord : s.vfs.registry.record? id = some record) (hpos : 0 < record.refs) (name : String)
    (other : BlobId) : (s.vfs.registry.unname record.name).lookup? name = some other ↔
      s.vfs.registry.lookup? name = some other ∧ id ≠ other := by
  have hnamed := (h.kept id record hrecord).named hpos
  rw [lookup?_unname]
  constructor
  · intro hname
    split at hname
    · cases hname
    · rename_i hne
      refine ⟨hname, ?_⟩
      rintro rfl
      obtain ⟨r, hr, hrname, -⟩ := h.leads name id hname
      cases hrecord.symm.trans hr
      exact hne hrname
  · rintro ⟨hname, hne⟩
    rw [if_neg ?_, hname]
    rintro rfl
    exact hne (Option.some.inj (hnamed.symm.trans hname))

theorem Orderly.granted_closing (h : s.Orderly)
    (hgrant : s.grants[number]? = some ⟨name, handle, false⟩) :
    ∀ grant ∈ s.grants.set number ⟨name, handle, true⟩, ∃ record,
      s.vfs.registry.record? grant.handle.blob = some record ∧ record.name = grant.name := by
  intro grant hmem
  rcases List.mem_or_eq_of_mem_set hmem with hmem | rfl
  · exact h.granted grant hmem
  · exact h.granted ⟨name, handle, false⟩ (List.mem_of_getElem? hgrant)

/-- A handle that is not the last on its record leaves it open. -/
theorem Orderly.left (h : s.Orderly) (hgrant : s.grants[number]? = some ⟨name, handle, false⟩)
    (hrecord : s.vfs.registry.record? handle.blob = some record) (hmore : record.refs - 1 ≠ 0) :
    (⟨{ s.vfs with
        registry := s.vfs.registry.modifyRecord handle.blob fun r =>
          { r with refs := record.refs - 1 } },
      s.grants.set number ⟨name, handle, true⟩⟩ : Session D W).Orderly := by
  obtain ⟨hrefs, hheld, hnamed⟩ := h.kept handle.blob record hrecord
  have hpos : 0 < record.refs := hrefs ▸ holders_pos hgrant
  let next : BlobRecord D := { record with refs := record.refs - 1 }
  have hleft : 0 < next.refs := Nat.pos_of_ne_zero hmore
  refine h.of_touches hrecord (show next.name = record.name from rfl)
    ⟨?_, fun other hne => ⟨?_, ?_⟩, fun name other => ⟨fun h => ⟨h, fun _ => hleft⟩, And.left⟩,
      h.granted_closing hgrant⟩
    ⟨?_, ⟨fun _ => hleft, fun _ => hheld.mpr hpos⟩, fun _ => hnamed hpos⟩
  · exact (record?_modifyRecord _ _ _).trans (by rw [hrecord, Option.map_some])
  · exact record?_modifyRecord_of_ne _ hne _
  · rw [holders_closing hgrant rfl, if_neg hne, Nat.sub_zero]
  · rw [holders_closing hgrant rfl, if_pos rfl, ← hrefs]

/-- The last handle on a record takes the name and the device with it. -/
theorem Orderly.left_last (h : s.Orderly)
    (hgrant : s.grants[number]? = some ⟨name, handle, false⟩)
    (hrecord : s.vfs.registry.record? handle.blob = some record) (hlast : record.refs - 1 = 0)
    (world : W) :
    (⟨⟨(s.vfs.registry.modifyRecord handle.blob fun r =>
        { r with refs := 0, device := none }).unname record.name, world⟩,
      s.grants.set number ⟨name, handle, true⟩⟩ : Session D W).Orderly := by
  obtain ⟨hrefs, -, -⟩ := h.kept handle.blob record hrecord
  have hpos : 0 < record.refs := hrefs ▸ holders_pos hgrant
  let next : BlobRecord D := { record with refs := 0, device := none }
  refine h.of_touches hrecord (show next.name = record.name from rfl)
    ⟨?_, fun other hne => ⟨?_, ?_⟩, fun name other => ?_, h.granted_closing hgrant⟩
    ⟨?_, ?_, fun h => absurd h (Nat.lt_irrefl 0)⟩
  · exact (record?_modifyRecord _ _ _).trans (by rw [hrecord, Option.map_some])
  · exact record?_modifyRecord_of_ne _ hne _
  · rw [holders_closing hgrant rfl, if_neg hne, Nat.sub_zero]
  · refine (h.names_unname hrecord hpos name other).trans (and_congr_right fun _ => ?_)
    exact ⟨fun hne heq => absurd heq hne, fun hlt heq => absurd (hlt heq) (Nat.lt_irrefl 0)⟩
  · rw [holders_closing hgrant rfl, if_pos rfl, ← hrefs, hlast]
  · exact ⟨fun h => absurd h Bool.false_ne_true, fun h => absurd h (Nat.lt_irrefl 0)⟩

end closing

/-! ### Handles given out -/

/-- A handle that is given out is one more on its record, and as many on every other. -/
theorem holders_opening {name : String} {handle : Handle} {s' : Session D W}
    (hgrants : s'.grants = s.grants ++ [⟨name, handle, false⟩]) (id : BlobId) :
    s'.holders id = s.holders id + if handle.blob = id then 1 else 0 := by
  rw [holders, hgrants, List.countP_append, holders]
  by_cases hid : handle.blob = id <;> simp [hid]

/-- Nobody holds a record that there is not. -/
theorem Orderly.holders_eq_zero (h : s.Orderly) {id : BlobId}
    (hrecord : s.vfs.registry.record? id = none) : s.holders id = 0 := by
  rw [holders, List.countP_eq_zero]
  intro grant hgrant hheld
  obtain ⟨record, hsome, -⟩ := h.granted grant hgrant
  simp only [Bool.and_eq_true, beq_iff_eq] at hheld
  rw [hheld.2, hrecord] at hsome
  cases hsome

/-- A name that is open is shared. -/
theorem Orderly.shared (h : s.Orderly) {name : String} {handle : Handle}
    (hname : s.vfs.registry.lookup? name = some handle.blob) :
    (⟨{ s.vfs with
        registry := s.vfs.registry.modifyRecord handle.blob fun record =>
          { record with refs := record.refs + 1 } },
      s.grants ++ [⟨name, handle, false⟩]⟩ : Session D W).Orderly := by
  obtain ⟨record, hrecord, hrname, hpos⟩ := h.leads _ handle.blob hname
  obtain ⟨hrefs, hheld, hnamed⟩ := h.kept handle.blob record hrecord
  let next : BlobRecord D := { record with refs := record.refs + 1 }
  refine h.of_touches hrecord (show next.name = record.name from rfl)
    ⟨?_, fun other hne => ⟨?_, ?_⟩, fun _ _ => ⟨fun h => ⟨h, fun _ => Nat.succ_pos _⟩, And.left⟩,
      fun grant hgrant => ?_⟩
    ⟨?_, ⟨fun _ => Nat.succ_pos _, fun _ => hheld.mpr hpos⟩, fun _ => hnamed hpos⟩
  · exact (record?_modifyRecord _ _ _).trans (by rw [hrecord, Option.map_some])
  · exact record?_modifyRecord_of_ne _ hne _
  · rw [holders_opening rfl, if_neg hne, Nat.add_zero]
  · rcases List.mem_append.mp hgrant with hold | hnew
    · exact h.granted grant hold
    · obtain rfl := List.mem_singleton.mp hnew
      exact ⟨record, hrecord, hrname⟩
  · rw [holders_opening rfl, if_pos rfl, ← hrefs]

/-- A new record is entered with one holder. -/
theorem Orderly.entered (h : s.Orderly) {path : String}
    (hnew : s.vfs.registry.lookup? path = none) {a : Attached D W} (hthere : a.device.isSome = true)
    (partition : Partition) :
    (⟨⟨(s.vfs.registry.enter path ⟨path, a.device, partition, 1⟩).2, a.world⟩,
      s.grants ++ [⟨path, ⟨.database, s.vfs.registry.records.size, 0⟩, false⟩]⟩ :
      Session D W).Orderly := by
  have hnone : s.vfs.registry.record? s.vfs.registry.records.size = none := by
    simp [Registry.record?]
  have hother : ∀ id record, s.vfs.registry.record? id = some record →
      id ≠ s.vfs.registry.records.size := by
    rintro id record hrecord rfl
    cases hnone.symm.trans hrecord
  constructor
  · intro id record hrecord
    dsimp only at hrecord
    rw [record?_enter] at hrecord
    split at hrecord
    · rename_i hid
      subst hid
      cases hrecord
      refine ⟨?_, ⟨fun _ => Nat.one_pos, fun _ => hthere⟩, fun _ => ?_⟩
      · rw [holders_opening rfl, if_pos rfl, h.holders_eq_zero hnone]
      · dsimp only
        rw [lookup?_enter, if_pos rfl]
    · rename_i hid
      obtain ⟨hrefs, hheld, hnamed⟩ := h.kept id record hrecord
      refine ⟨?_, hheld, fun hpos => ?_⟩
      · rw [holders_opening rfl, if_neg (Ne.symm hid), Nat.add_zero, hrefs]
      · dsimp only
        rw [lookup?_enter, if_neg, hnamed hpos]
        rintro rfl
        cases hnew.symm.trans (hnamed hpos)
  · intro grant hgrant
    dsimp only
    rcases List.mem_append.mp hgrant with hold | hfresh
    · obtain ⟨record, hrecord, hname⟩ := h.granted grant hold
      exact ⟨record, by rw [record?_enter, if_neg (hother _ _ hrecord), hrecord], hname⟩
    · obtain rfl := List.mem_singleton.mp hfresh
      exact ⟨_, by rw [record?_enter, if_pos rfl], rfl⟩
  · intro name id hname
    dsimp only at hname ⊢
    rw [lookup?_enter] at hname
    split at hname
    · rename_i hpath
      cases hname
      exact ⟨_, by rw [record?_enter, if_pos rfl], hpath, Nat.one_pos⟩
    · obtain ⟨record, hrecord, hrname, hpos⟩ := h.leads name id hname
      exact ⟨record, by rw [record?_enter, if_neg (hother _ _ hrecord), hrecord], hrname, hpos⟩

/-! ### Handles under a name -/

/-- The handles under a name that are out. -/
def openUnder (s : Session D W) (name : String) : List Grant :=
  s.grants.filter fun grant => grant.name = name ∧ grant.closed = false

theorem mem_openUnder {name : String} {grant : Grant} :
    grant ∈ s.openUnder name ↔ grant ∈ s.grants ∧ grant.name = name ∧ grant.closed = false := by
  simp [openUnder]

/-- The name of a handle that is out leads to the handle's record. -/
theorem Orderly.lookup?_of_out (h : s.Orderly) {grant : Grant} (hgrant : grant ∈ s.grants)
    (hout : grant.closed = false) :
    s.vfs.registry.lookup? grant.name = some grant.handle.blob := by
  obtain ⟨record, hrecord, hname⟩ := h.granted grant hgrant
  have hkept := h.kept _ record hrecord
  have hheld : 0 < s.holders grant.handle.blob :=
    List.countP_pos_iff.mpr ⟨grant, hgrant, by simp [hout]⟩
  rw [← hname]
  exact hkept.named (hkept.refs_eq ▸ hheld)

/-- The handles on a record that is open under a name are those under the name. -/
theorem Orderly.holders_eq (h : s.Orderly) {name : String} {id : BlobId}
    (hname : s.vfs.registry.lookup? name = some id) :
    s.holders id = (s.openUnder name).length := by
  rw [holders, openUnder, ← List.countP_eq_length_filter]
  refine List.countP_congr fun grant hgrant => ?_
  obtain ⟨record, hrecord, hrname, -⟩ := h.leads name id hname
  obtain ⟨r, hr, hgranted⟩ := h.granted grant hgrant
  simp only [Bool.and_eq_true, Bool.not_eq_true', beq_iff_eq, decide_eq_true_eq]
  constructor
  · rintro ⟨hout, rfl⟩
    cases hrecord.symm.trans hr
    exact ⟨hgranted.symm.trans hrname, hout⟩
  · rintro ⟨rfl, hout⟩
    exact ⟨hout, Option.some.inj ((h.lookup?_of_out hgrant hout).symm.trans hname)⟩

/-! ## Deeds -/

variable [Disk (Attached D W)] [Around W]

/-- The session after a deed, successful or not. -/
def after (s : Session D W) : Deed D W → Session D W
  | .opening path region openDevice =>
    match (openVia path region openDevice).run s.vfs with
    | .ok handle vfs => ⟨vfs, s.grants ++ [⟨blobName path region, handle, false⟩]⟩
    | .error _ vfs => { s with vfs := vfs }
  | .asking request => { s with vfs := request.perform.reached s.vfs }
  | .closing number =>
    match s.grants[number]? with
    | some ⟨name, handle, false⟩ =>
      ⟨(Vfs.close handle).reached s.vfs, s.grants.set number ⟨name, handle, true⟩⟩
    | _ => s
  | .meanwhile change => { s with vfs := { s.vfs with world := change s.vfs.world } }

/-- The session after deeds done one after the other. -/
def run (s : Session D W) (deeds : List (Deed D W)) : Session D W := deeds.foldl after s

/-! ### What a deed leaves -/

section deeds

variable {id : BlobId} {record : BlobRecord D} {request : Request} {number : Nat} {path : String}
  {region : Region} {openDevice : String → StepM W D}

/-- A request about a record is served on the record's device. -/
theorem after_asking (htarget : request.target s.vfs.registry = some id)
    (hrecord : s.vfs.registry.record? id = some record) :
    ∃ partition, request.Turns record.partition partition ∧
      s.after (.asking request) =
        { s with
          vfs := settle id partition
            ((request.onDevice record.partition : StepM (Attached D W) Unit).reached
              (attached record s.vfs)) s.vfs } := by
  obtain ⟨partition, hturns, hreached⟩ := Request.reached_of_target htarget hrecord
  refine ⟨partition, hturns, ?_⟩
  rw [after, hreached]

theorem after_asking_absent (htarget : request.target s.vfs.registry = some id)
    (hrecord : s.vfs.registry.record? id = none) : s.after (.asking request) = s := by
  rw [after, Request.reached_of_absent htarget hrecord]

/-- A handle that was given back, or never given out, is not given back again. -/
theorem after_closing_out (h : ∀ name handle, s.grants[number]? ≠ some ⟨name, handle, false⟩) :
    s.after (.closing number) = s := by
  rw [after]
  split
  · rename_i name handle hgrant
    exact absurd hgrant (h name handle)
  · rfl

theorem vfs_after_opening {handle : Handle} {opened : Vfs D W}
    (hopen : (openVia path region openDevice).run s.vfs = .ok handle opened) :
    (s.after (.opening path region openDevice)).vfs = opened := by
  simp only [after, hopen]

/-- A name that is open is shared. -/
theorem after_opening_known (hname : s.vfs.registry.lookup? (blobName path region) = some id) :
    s.after (.opening path region openDevice) =
      ⟨{ s.vfs with
          registry := s.vfs.registry.modifyRecord id fun record =>
            { record with refs := record.refs + 1 } },
        s.grants ++ [⟨blobName path region, ⟨region, id, 0⟩, false⟩]⟩ := by
  simp only [after, openVia_known hname]

/-- A journal alone is refused. -/
theorem after_opening_alone (hname : s.vfs.registry.lookup? (blobName path .journal) = none) :
    s.after (.opening path .journal openDevice) = s := by
  simp only [after, openVia_alone hname]

end deeds

/-! ### Deeds keep order -/

variable [Attached.Lasting D W]

omit [Around W] in
/-- The work of a request neither takes the device away nor brings one. -/
theorem isSome_reached_onDevice (request : Request) (partition : Partition) (a : Attached D W) :
    ((request.onDevice partition : StepM (Attached D W) Unit).reached a).device.isSome =
      a.device.isSome :=
  (Request.alike_onDevice (Attached.Lasting.keeps a.device.isSome).matches_self request partition
    ⟨rfl, rfl⟩).reached_rel.2

theorem Orderly.asking (h : s.Orderly) (request : Request) : (s.after (.asking request)).Orderly := by
  cases htarget : request.target s.vfs.registry with
  | none => exact h.of_registry (Request.registry_of_untargeted htarget)
  | some id =>
    cases hrecord : s.vfs.registry.record? id with
    | none => rwa [after_asking_absent htarget hrecord]
    | some record =>
      obtain ⟨partition, -, hafter⟩ := after_asking htarget hrecord
      have hdevice := isSome_reached_onDevice request record.partition (attached record s.vfs)
      generalize (request.onDevice record.partition : StepM (Attached D W) Unit).reached
        (attached record s.vfs) = a at hafter hdevice
      let next : BlobRecord D := { record with device := a.device, partition := partition }
      have htouches : s.Touches { s with vfs := settle id partition a s.vfs } id next := by
        refine ⟨?_, fun other hne => ⟨?_, rfl⟩,
          fun name other => ⟨fun hname => ⟨hname, ?_⟩, And.left⟩, h.granted⟩
        · rw [settle, record?_modifyRecord, hrecord, Option.map_some]
        · rw [settle, record?_modifyRecord_of_ne _ hne]
        · rintro rfl
          show 0 < record.refs
          exact h.refs_pos hrecord hname
      obtain ⟨hrefs, hheld, hnamed⟩ := h.kept id record hrecord
      rw [hafter]
      refine h.of_touches hrecord (show next.name = record.name from rfl) htouches
        ⟨hrefs, ?_, hnamed⟩
      rw [← hheld]
      exact iff_of_eq (congrArg (· = true) hdevice)

theorem Orderly.closing (h : s.Orderly) (number : Nat) : (s.after (.closing number)).Orderly := by
  rw [after]
  split
  · rename_i name handle hgrant
    obtain ⟨record, hrecord, -⟩ := h.granted _ (List.mem_of_getElem? hgrant)
    rw [close_reached hrecord]
    by_cases hlast : record.refs - 1 = 0
    · rw [if_pos hlast]
      exact h.left_last hgrant hrecord hlast _
    · rw [if_neg hlast]
      exact h.left hgrant hrecord hlast
  · exact h

theorem Orderly.opening (h : s.Orderly) (path : String) (region : Region)
    (openDevice : String → StepM W D) : (s.after (.opening path region openDevice)).Orderly := by
  cases hname : s.vfs.registry.lookup? (blobName path region) with
  | some id =>
    rw [after_opening_known hname]
    exact @Orderly.shared _ _ s h _ ⟨region, id, 0⟩ hname
  | none =>
    cases region with
    | journal => rwa [after_opening_alone hname]
    | database =>
      have hnew : s.vfs.registry.lookup? path = none := hname
      cases hopen : (openVia path .database openDevice).run s.vfs with
      | error e vfs =>
        simp only [after, hopen]
        exact h.of_registry (registry_of_openVia_error hopen)
      | ok handle vfs =>
        obtain ⟨device, world, partition, a, -, hmount, rfl, rfl⟩ := entered_of_openVia hnew hopen
        have hthere := (Blob.ends_mount_lasting path _).value partition (run_eq_ok_iff.mp hmount).1
        rw [(run_eq_ok_iff.mp hmount).2] at hthere
        simp only [after, hopen]
        exact h.entered hnew hthere partition

/-! ## Runs -/

theorem orderly_after (h : s.Orderly) (deed : Deed D W) : (s.after deed).Orderly := by
  cases deed with
  | opening path region openDevice => exact h.opening path region openDevice
  | asking request => exact h.asking request
  | closing number => exact h.closing number
  | meanwhile change => exact h.of_registry rfl

theorem orderly_run (h : s.Orderly) (deeds : List (Deed D W)) : (s.run deeds).Orderly := by
  induction deeds generalizing s with
  | nil => exact h
  | cons deed rest ih => exact ih (orderly_after h deed)

end Session

end TwinRegion
