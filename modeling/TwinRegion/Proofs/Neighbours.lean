/-
TwinRegion.Proofs.Neighbours — devices keep to their own media.

A blob is kept on a `Medium`: one in memory, a file, or the file at a
place, which an opening makes if it is missing. `World.origin?` says what
that is in a world, and `World.kept` what is behind it there. Two worlds are
twins for one medium (`World.Twins`) if the same is kept on it in both,
though a file may have another number in each; the rest of the second world
does not matter, and the rest of the first is that of a third world. A
device has no other dealings with the world than with what is behind it, so
its calls go alike in twin worlds and leave twins (`Attached.matches_twins`),
and so do the operations of a blob on it. A step `Minds` one medium if as
much is true of it, and an opening `Opens` it if it gives devices on that
medium only; such are the openings of a medium in memory, of a file that is
there, and of a file that may have to be made.
-/
import Mathlib.Data.Set.Defs
import TwinRegion.Proofs.Holding
import TwinRegion.Proofs.Numbering

namespace TwinRegion

open StepM

/-- A step does with a state what it does with it. -/
theorem StepM.Alike.self {σ α : Type} {P : σ → Prop} {step : StepM σ α} {s : σ}
    (h : P (step.reached s)) : Alike (fun u v => u = v ∧ P v) step s step s := by
  cases hrun : step.run s with
  | ok a s' => exact .ok hrun hrun ⟨rfl, (run_eq_ok_iff.mp hrun).2 ▸ h⟩
  | error e s' => exact .error hrun hrun ⟨rfl, (run_eq_error_iff.mp hrun).2 ▸ h⟩

/-! ## Media -/

/-- What a blob is kept on: a medium in memory, a file, or the file at a place, which may be
missing as yet. -/
inductive Medium where
  | ram (name : String)
  | file (number : Nat)
  | place (place : Place)
  deriving DecidableEq

/-- What there was at first, and the media that are in use. -/
structure Ground where
  tree : Std.ExtTreeMap Place FileEntry
  media : Set Medium

/-! ## Worlds -/

namespace World

/-- All there is behind a device: a medium, or what a file holds. -/
def behind (world : World) : String ⊕ Nat → RamDisk ⊕ FileBody
  | .inl name => .inl (world.medium name)
  | .inr number => .inr (world.files.body number)

/-- What stands at each place. -/
def tree (world : World) : Std.ExtTreeMap Place FileEntry := world.files.entries

/-- Where devices on a medium come from, if there are any yet. -/
def origin? (world : World) : Medium → Option (String ⊕ Nat)
  | .ram name => some (.inl name)
  | .file number => some (.inr number)
  | .place place =>
    match world.files.entryAt place with
    | some (.file number) => some (.inr number)
    | _ => none

/-- What is kept on a medium. -/
def kept (world : World) (medium : Medium) : Option (RamDisk ⊕ FileBody) :=
  (world.origin? medium).map world.behind

theorem origin?_eq_inl {world : World} {medium : Medium} {name : String}
    (h : world.origin? medium = some (.inl name)) : medium = .ram name := by
  cases medium with
  | ram other =>
    cases h
    rfl
  | file number => cases h
  | place place =>
    simp only [origin?] at h
    split at h <;> cases h

theorem origin?_place {world : World} {place : Place} {origin : String ⊕ Nat}
    (h : world.origin? (.place place) = some origin) :
    ∃ number, world.files.entryAt place = some (.file number) ∧ origin = .inr number := by
  simp only [origin?] at h
  split at h
  · rename_i number hentry
    exact ⟨number, hentry, (Option.some.inj h).symm⟩
  · cases h

theorem origin?_congr {world other : World} (h : other.tree = world.tree) (medium : Medium) :
    other.origin? medium = world.origin? medium := by
  cases medium with
  | ram name => rfl
  | file number => rfl
  | place place =>
    simp only [origin?, FileStore.entryAt, show other.files.entries = world.files.entries from h]

theorem kept_eq {world : World} {medium : Medium} {origin : String ⊕ Nat}
    (h : world.origin? medium = some origin) : world.kept medium = some (world.behind origin) := by
  rw [kept, h, Option.map_some]

/-! ### What may change -/

/-- Another thing is behind this origin, and all else is as it was. -/
structure Puts (origin : String ⊕ Nat) (value : RamDisk ⊕ FileBody) (world after : World) :
    Prop where
  tree_eq : after.tree = world.tree
  nextNumber_eq : after.files.nextNumber = world.files.nextNumber
  behind_eq : ∀ other, after.behind other = if other = origin then value else world.behind other

theorem puts_setMedium (world : World) (name : String) (disk : RamDisk) :
    Puts (.inl name) (.inl disk) world (world.setMedium name disk) where
  tree_eq := rfl
  nextNumber_eq := rfl
  behind_eq origin := by
    cases origin with
    | inl other =>
      rw [behind, medium_setMedium]
      by_cases h : name = other <;> simp [h, behind, eq_comm]
    | inr number => rfl

theorem puts_setFileDisk (world : World) (disk : FileDisk) :
    Puts (.inr disk.handle.number) (.inr disk.body) world (world.setFileDisk disk) where
  tree_eq := rfl
  nextNumber_eq := rfl
  behind_eq origin := by
    cases origin with
    | inl name => rfl
    | inr number =>
      have h := world.contents_setFileDisk disk (.inr number)
      simp only [contents] at h
      rw [behind, h]
      by_cases hnumber : number = disk.handle.number <;> simp [hnumber, behind]

/-- There is a new empty file at a place. -/
structure Makes (place : Place) (world after : World) : Prop where
  tree_eq : ∀ other, after.tree[other]? =
    if other = place then some (.file world.files.nextNumber) else world.tree[other]?
  nextNumber_eq : after.files.nextNumber = world.files.nextNumber + 1
  behind_eq : ∀ other, after.behind other =
    if other = .inr world.files.nextNumber then .inr (.regular .empty) else world.behind other

theorem makes_create (world : World) (place : Place) :
    Makes place world { world with files := (world.files.create place (.regular .empty)).2 } where
  tree_eq other := by
    simp only [tree, FileStore.create, FileStore.createUnnamed, Std.ExtTreeMap.getElem?_insert,
      Std.compare_eq_iff_eq, @eq_comm _ other]
  nextNumber_eq := rfl
  behind_eq origin := by
    cases origin with
    | inl name => rfl
    | inr number =>
      by_cases h : number = world.files.nextNumber
      · simp [behind, FileStore.create, FileStore.createUnnamed, FileStore.body, h]
      · simp [behind, FileStore.create, FileStore.createUnnamed, FileStore.body,
          Std.ExtTreeMap.getElem?_insert, h, Ne.symm h]

theorem Makes.origin?_eq {place : Place} {world after : World} (h : Makes place world after)
    (medium : Medium) : after.origin? medium =
      if medium = .place place then some (.inr world.files.nextNumber) else world.origin? medium := by
  cases medium with
  | ram name => rfl
  | file number => rfl
  | place other =>
    have hentry : after.files.entryAt other =
        if other = place then some (.file world.files.nextNumber) else world.files.entryAt other :=
      h.tree_eq other
    by_cases hother : other = place
    · subst hother
      simp [origin?, hentry]
    · simp [origin?, hentry, hother]

/-! ### Twins -/

/-- The files that were there at first are there, and no others but at places that are in use. -/
structure Grown (ground : Ground) (world : World) : Prop where
  entry : ∀ place, world.tree[place]? = ground.tree[place]? ∨
    (.place place ∈ ground.media ∧ ground.tree[place]? = none ∧
      ∃ number, world.tree[place]? = some (.file number))

/-- No two media are kept on one file, and a file that is yet to be made will have a number that
none of them has. -/
structure Apart (media : Set Medium) (world : World) : Prop where
  eq_of_origin : ∀ {medium other origin}, medium ∈ media → other ∈ media →
    world.origin? medium = some origin → world.origin? other = some origin → medium = other
  fresh : ∀ {medium place number}, medium ∈ media → .place place ∈ media →
    world.origin? medium = some (.inr number) → world.origin? (.place place) = none →
    number < world.files.nextNumber

/-- The same is kept on a medium in two worlds, with these origins there; what is kept on the
other media in the first is what is kept on them in `base`. -/
structure Twins (ground : Ground) (medium : Medium) (origin origin' : Option (String ⊕ Nat))
    (base far near : World) : Prop where
  mem : medium ∈ ground.media
  far_grown : far.Grown ground
  near_grown : near.Grown ground
  far_apart : far.Apart ground.media
  far_origin : far.origin? medium = origin
  near_origin : near.origin? medium = origin'
  kept_eq : far.kept medium = near.kept medium
  still : ∀ other ∈ ground.media, other ≠ medium →
    far.origin? other = base.origin? other ∧ far.kept other = base.kept other

variable {ground : Ground} {medium : Medium} {origin origin' : Option (String ⊕ Nat)}
  {base far near : World} {place : Place}

theorem Grown.of_tree_eq {world after : World} (h : world.Grown ground)
    (htree : after.tree = world.tree) : after.Grown ground := by
  refine ⟨fun place => ?_⟩
  rw [htree]
  exact h.entry place

/-- Directories are never made or lost. -/
theorem Grown.directory_iff {world : World} (h : world.Grown ground) (number : Nat) :
    world.files.entryAt place = some (.directory number) ↔
      ground.tree[place]? = some (.directory number) := by
  have hentry : world.files.entryAt place = world.tree[place]? := rfl
  rw [hentry]
  rcases h.entry place with hsame | ⟨-, hnone, made, hmade⟩
  · rw [hsame]
  · rw [hnone, hmade]
    constructor <;> intro hdirectory <;> cases hdirectory

/-- A file that was there at first is there. -/
theorem Grown.file_of_ground {world : World} (h : world.Grown ground) {number : Nat}
    (hfile : ground.tree[place]? = some (.file number)) :
    world.files.entryAt place = some (.file number) := by
  rcases h.entry place with hsame | ⟨-, hnone, -⟩
  · exact hsame.trans hfile
  · rw [hnone] at hfile
    cases hfile

/-- Paths lead where they led at first. -/
theorem Grown.leads {first world : World} (hground : ground.tree = first.tree)
    (h : world.Grown ground) {path : Path} (hleads : first.files.Leads path place) :
    world.files.Leads path place := by
  refine hleads.of_directories fun place number hdirectory => ?_
  rw [h.directory_iff, hground]
  exact hdirectory

theorem Grown.of_makes {world after : World} (h : world.Grown ground)
    (hmakes : Makes place world after) (hmem : .place place ∈ ground.media)
    (hnone : world.tree[place]? = none) : after.Grown ground := by
  refine ⟨fun other => ?_⟩
  rw [hmakes.tree_eq]
  by_cases hother : other = place
  · subst hother
    refine .inr ⟨hmem, ?_, _, if_pos rfl⟩
    rcases h.entry other with hsame | ⟨-, hground, -⟩
    · exact hsame ▸ hnone
    · exact hground
  · rw [if_neg hother]
    exact h.entry other

theorem Apart.of_tree_eq {media : Set Medium} {world after : World} (h : world.Apart media)
    (htree : after.tree = world.tree) (hnext : after.files.nextNumber = world.files.nextNumber) :
    after.Apart media := by
  constructor
  · intro medium other origin hmedium hother
    rw [origin?_congr htree, origin?_congr htree]
    exact h.eq_of_origin hmedium hother
  · intro medium place number hmedium hplace
    rw [origin?_congr htree, origin?_congr htree, hnext]
    exact h.fresh hmedium hplace

/-- Nothing has to be known of media that no opening makes. -/
theorem apart_of_no_place {media : Set Medium} (h : ∀ place, .place place ∉ media) (world : World) :
    world.Apart media where
  fresh _ hplace := absurd hplace (h _)
  eq_of_origin {medium other origin} hmedium hother hfirst hsecond := by
    cases medium with
    | ram name =>
      cases hfirst
      exact (origin?_eq_inl hsecond).symm
    | file number =>
      cases hfirst
      cases other with
      | ram name => cases hsecond
      | file other =>
        cases hsecond
        rfl
      | place place => exact absurd hother (h place)
    | place place => exact absurd hmedium (h place)

/-- Nothing has to be known of files while all of them are yet to be made. -/
theorem apart_of_no_file {media : Set Medium} {world : World}
    (h : ∀ medium ∈ media, ∀ number, world.origin? medium ≠ some (.inr number)) :
    world.Apart media where
  fresh hmedium _ hnumber := absurd hnumber (h _ hmedium _)
  eq_of_origin {medium other origin} hmedium hother hfirst hsecond := by
    cases origin with
    | inl name => rw [origin?_eq_inl hfirst, origin?_eq_inl hsecond]
    | inr number => exact absurd hfirst (h medium hmedium number)

/-- The new number was free. -/
theorem Apart.ne_nextNumber {media : Set Medium} {world : World} (h : world.Apart media)
    (hplace : .place place ∈ media) (hnone : world.origin? (.place place) = none)
    {medium : Medium} (hmedium : medium ∈ media) :
    world.origin? medium ≠ some (.inr world.files.nextNumber) :=
  fun hnumber => Nat.lt_irrefl _ (h.fresh hmedium hplace hnumber hnone)

theorem Apart.of_makes {media : Set Medium} {world after : World} (h : world.Apart media)
    (hmakes : Makes place world after) (hplace : .place place ∈ media)
    (hnone : world.origin? (.place place) = none) : after.Apart media := by
  constructor
  · intro medium other origin hmedium hother hfirst hsecond
    rw [hmakes.origin?_eq] at hfirst hsecond
    by_cases hm : medium = .place place
    · by_cases ho : other = .place place
      · rw [hm, ho]
      · rw [if_pos hm] at hfirst
        rw [if_neg ho, ← hfirst] at hsecond
        exact absurd hsecond (h.ne_nextNumber hplace hnone hother)
    · rw [if_neg hm] at hfirst
      by_cases ho : other = .place place
      · rw [if_pos ho] at hsecond
        rw [← hsecond] at hfirst
        exact absurd hfirst (h.ne_nextNumber hplace hnone hmedium)
      · rw [if_neg ho] at hsecond
        exact h.eq_of_origin hmedium hother hfirst hsecond
  · intro medium other number hmedium hother hnumber hmissing
    rw [hmakes.origin?_eq] at hnumber hmissing
    rw [hmakes.nextNumber_eq]
    by_cases ho : (.place other : Medium) = .place place
    · rw [if_pos ho] at hmissing
      cases hmissing
    rw [if_neg ho] at hmissing
    by_cases hm : medium = .place place
    · rw [if_pos hm] at hnumber
      cases hnumber
      exact Nat.lt_succ_self _
    · rw [if_neg hm] at hnumber
      exact Nat.lt_succ_of_lt (h.fresh hmedium hother hnumber hmissing)

/-- The same is put behind the devices of the medium in both worlds. -/
theorem Twins.puts {o o' : String ⊕ Nat} (h : Twins ground medium (some o) (some o') base far near)
    {value : RamDisk ⊕ FileBody} {far' near' : World} (hfar : Puts o value far far')
    (hnear : Puts o' value near near') :
    Twins ground medium (some o) (some o') base far' near' where
  mem := h.mem
  far_grown := h.far_grown.of_tree_eq hfar.tree_eq
  near_grown := h.near_grown.of_tree_eq hnear.tree_eq
  far_apart := h.far_apart.of_tree_eq hfar.tree_eq hfar.nextNumber_eq
  far_origin := (origin?_congr hfar.tree_eq medium).trans h.far_origin
  near_origin := (origin?_congr hnear.tree_eq medium).trans h.near_origin
  kept_eq := by
    rw [World.kept_eq ((origin?_congr hfar.tree_eq medium).trans h.far_origin),
      World.kept_eq ((origin?_congr hnear.tree_eq medium).trans h.near_origin),
      hfar.behind_eq, hnear.behind_eq, if_pos rfl, if_pos rfl]
  still other hmem hother := by
    have hsame := origin?_congr hfar.tree_eq other
    obtain ⟨horigin, hkept⟩ := h.still other hmem hother
    refine ⟨hsame.trans horigin, ?_⟩
    rw [← hkept, kept, kept, hsame]
    cases hfound : far.origin? other with
    | none => rfl
    | some found =>
      have hne : found ≠ o := by
        rintro rfl
        exact hother (h.far_apart.eq_of_origin hmem h.mem hfound h.far_origin)
      rw [Option.map_some, Option.map_some, hfar.behind_eq, if_neg hne]

/-- The file is made in both worlds. -/
theorem Twins.makes (h : Twins ground (.place place) none none base far near) {far' near' : World}
    (hfar : Makes place far far') (hnear : Makes place near near')
    (hfarNone : far.tree[place]? = none) (hnearNone : near.tree[place]? = none) :
    Twins ground (.place place) (some (.inr far.files.nextNumber))
      (some (.inr near.files.nextNumber)) base far' near' where
  mem := h.mem
  far_grown := h.far_grown.of_makes hfar h.mem hfarNone
  near_grown := h.near_grown.of_makes hnear h.mem hnearNone
  far_apart := h.far_apart.of_makes hfar h.mem h.far_origin
  far_origin := by rw [hfar.origin?_eq, if_pos rfl]
  near_origin := by rw [hnear.origin?_eq, if_pos rfl]
  kept_eq := by
    have hfarOrigin := hfar.origin?_eq (.place place)
    have hnearOrigin := hnear.origin?_eq (.place place)
    rw [if_pos rfl] at hfarOrigin hnearOrigin
    rw [World.kept_eq hfarOrigin, World.kept_eq hnearOrigin, hfar.behind_eq, hnear.behind_eq,
      if_pos rfl, if_pos rfl]
  still other hmem hother := by
    have hsame := hfar.origin?_eq other
    rw [if_neg hother] at hsame
    obtain ⟨horigin, hkept⟩ := h.still other hmem hother
    refine ⟨hsame.trans horigin, ?_⟩
    rw [← hkept, kept, kept, hsame]
    cases hfound : far.origin? other with
    | none => rfl
    | some found =>
      have hne : found ≠ .inr far.files.nextNumber := by
        rintro rfl
        exact h.far_apart.ne_nextNumber h.mem h.far_origin hmem hfound
      rw [Option.map_some, Option.map_some, hfar.behind_eq, if_neg hne]

end World

/-! ## Devices -/

/-- The device but for the number of its file. -/
def Device.unnumbered : Device → Device
  | .ram name => .ram name
  | .file handle => .file handle.unnumbered

/-- The same device, if any, with these origins. -/
structure Device.Paired (origin origin' : Option (String ⊕ Nat)) (far near : Option Device) :
    Prop where
  device_eq : far.map unnumbered = near.map unnumbered
  far_origin : ∀ device, far = some device → origin = some device.origin
  near_origin : ∀ device, near = some device → origin' = some device.origin

theorem Device.Paired.isSome_eq {origin origin' : Option (String ⊕ Nat)} {far near : Option Device}
    (h : Paired origin origin' far near) : far.isSome = near.isSome := by
  rw [← Option.isSome_map, h.device_eq, Option.isSome_map]

namespace Attached

/-- The same device of one medium beside twin worlds. -/
structure Twins (ground : Ground) (medium : Medium) (origin origin' : Option (String ⊕ Nat))
    (base : World) (far near : Attached) : Prop where
  devices : Device.Paired origin origin' far.device near.device
  world : World.Twins ground medium origin origin' base far.world near.world

variable {ground : Ground} {medium : Medium} {origin origin' : Option (String ⊕ Nat)}
  {base : World} {far near : Attached}

/-- Both are detached, or on one medium in memory, or on one file by some number. -/
theorem Twins.cases (h : Twins ground medium origin origin' base far near) :
    (far.device = none ∧ near.device = none) ∨
    (∃ name, far.device = some (.ram name) ∧ near.device = some (.ram name) ∧
      far.world.medium name = near.world.medium name) ∨
    ∃ handle handle', far.device = some (.file handle) ∧ near.device = some (.file handle') ∧
      FileDisk.Renumbered handle.number handle'.number (far.world.fileDisk handle)
        (near.world.fileDisk handle') := by
  have hsame := h.devices.device_eq
  cases hfar : far.device with
  | none =>
    rw [hfar, Option.map_none, eq_comm, Option.map_eq_none_iff] at hsame
    exact .inl ⟨rfl, hsame⟩
  | some device =>
    rw [hfar, Option.map_some, eq_comm] at hsame
    obtain ⟨device', hnear, hdevice⟩ := Option.map_eq_some_iff.mp hsame
    have hkept := h.world.kept_eq
    rw [World.kept_eq (h.world.far_origin.trans (h.devices.far_origin device hfar)),
      World.kept_eq (h.world.near_origin.trans (h.devices.near_origin device' hnear))] at hkept
    cases device with
    | ram name =>
      cases device' with
      | file handle => cases hdevice
      | ram name' =>
        cases hdevice
        exact .inr (.inl ⟨name, rfl, hnear, Sum.inl.inj (Option.some.inj hkept)⟩)
    | file handle =>
      cases device' with
      | ram name => cases hdevice
      | file handle' =>
        refine .inr (.inr ⟨handle, handle', rfl, hnear, rfl, rfl, ?_, ?_⟩)
        · exact (Device.file.inj hdevice).symm
        · exact Sum.inr.inj (Option.some.inj hkept)

/-- A call has no dealings but with what is behind the device. -/
theorem alike_call_twins {α : Type} {onRam : StepM RamDisk α} {onFile : StepM FileDisk α}
    (hfile : ∀ {number number' far near}, FileDisk.Renumbered number number' far near →
      Alike (FileDisk.Renumbered number number') onFile far onFile near)
    (h : Twins ground medium origin origin' base far near) :
    Alike (Twins ground medium origin origin' base) (call onRam onFile) far (call onRam onFile)
      near := by
  refine .get_bind ?_
  rcases h.cases with ⟨hfar, hnear⟩ | ⟨name, hfar, hnear, hmedium⟩ |
    ⟨handle, handle', hfar, hnear, hdisk⟩
  · rw [hfar, hnear]
    exact .check h
  · rw [hfar, hnear]
    have hstep : Alike (fun u v => u = v ∧ True) onRam (far.world.medium name) onRam
        (near.world.medium name) := hmedium ▸ .self trivial
    refine Alike.focus (s := far) (t := near) hstep ?_
    rintro disk _ ⟨rfl, -⟩
    obtain rfl := h.devices.far_origin _ hfar
    obtain rfl := h.devices.near_origin _ hnear
    exact ⟨h.devices, h.world.puts (World.puts_setMedium ..) (World.puts_setMedium ..)⟩
  · rw [hfar, hnear]
    refine Alike.focus (s := far) (t := near) (hfile hdisk) fun disk disk' hafter => ?_
    obtain rfl := h.devices.far_origin _ hfar
    obtain rfl := h.devices.near_origin _ hnear
    have hfarPuts := World.puts_setFileDisk far.world disk
    have hnearPuts := World.puts_setFileDisk near.world disk'
    rw [hafter.far_number] at hfarPuts
    rw [hafter.near_number, ← hafter.body_eq] at hnearPuts
    refine ⟨⟨congrArg (fun handle => some (Device.file handle)) hafter.handle_eq, ?_, ?_⟩,
      h.world.puts hfarPuts hnearPuts⟩
    · rintro _ ⟨⟩
      exact congrArg (fun number => some (Sum.inr number)) hafter.far_number.symm
    · rintro _ ⟨⟩
      exact congrArg (fun number => some (Sum.inr number)) hafter.near_number.symm

theorem matches_twins (ground : Ground) (medium : Medium) (origin origin' : Option (String ⊕ Nat))
    (base : World) : Disk.Matches (Twins ground medium origin origin' base) where
  ready {far near} h := by
    have hnone : far.device.isNone = near.device.isNone := by
      rw [← Option.not_isSome, ← Option.not_isSome, h.devices.isSome_eq]
    refine .get_bind ?_
    rw [hnone]
    exact .ite (fun _ => .check h) fun _ => .pure h
  length {far near} h := by
    rcases h.cases with ⟨hfar, hnear⟩ | ⟨name, hfar, hnear, hmedium⟩ |
      ⟨handle, handle', hfar, hnear, hdisk⟩
    · simp only [Disk.length, hfar, hnear]
    · simp only [Disk.length, hfar, hnear, hmedium]
    · simp only [Disk.length, hfar, hnear]
      exact hdisk.length_eq
  read h offset len := alike_call_twins (fun hdisk => FileDisk.alike_read_renumbered hdisk offset len) h
  write h offset data :=
    alike_call_twins (fun hdisk => FileDisk.alike_write_renumbered hdisk offset data) h
  sync h level := alike_call_twins (fun hdisk => FileDisk.alike_sync_renumbered hdisk level) h

theorem alike_close_twins (h : Twins ground medium origin origin' base far near) :
    Alike (Twins ground medium origin origin' base) (Disk.close : StepM Attached Unit) far Disk.close
      near :=
  alike_call_twins (fun hdisk => .pure hdisk) h

end Attached

/-! ## Steps -/

namespace World

variable {ground : Ground} {medium : Medium} {α : Type}

/-- The step has no dealings but with what is kept on this medium, and keeps its origin. -/
def Minds (ground : Ground) (medium : Medium) (step : StepM World α) : Prop :=
  ∀ {origin origin' : Option (String ⊕ Nat)} {base far near : World},
    Twins ground medium origin origin' base far near →
      Alike (Twins ground medium origin origin' base) step far step near

/-- An opening goes alike in two worlds: it fails for the same reason, or gives the same device of
the medium, and leaves twins. -/
inductive OpensAlike (ground : Ground) (medium : Medium) (base : World) (step : StepM World Device)
    (far near : World) : Prop where
  | ok {device device' : Device} {far' near' : World} (hfar : step.run far = .ok device far')
      (hnear : step.run near = .ok device' near') (hdevice : device.unnumbered = device'.unnumbered)
      (h : Twins ground medium (some device.origin) (some device'.origin) base far' near')
  | error {e : Failure} {origin origin' : Option (String ⊕ Nat)} {far' near' : World}
      (hfar : step.run far = .error e far') (hnear : step.run near = .error e near')
      (h : Twins ground medium origin origin' base far' near')

/-- The opening gives devices on this medium, and has no dealings but with what is kept there. -/
def Opens (ground : Ground) (medium : Medium) (step : StepM World Device) : Prop :=
  ∀ {origin origin' : Option (String ⊕ Nat)} {base far near : World},
    Twins ground medium origin origin' base far near → OpensAlike ground medium base step far near

theorem minds_setMedium (name : String) (change : RamDisk → RamDisk) :
    Minds ground (.ram name)
      (modify fun world => world.setMedium name (change (world.medium name)) : StepM World Unit) := by
  intro origin origin' base far near h
  obtain rfl := h.far_origin
  obtain rfl := h.near_origin
  have hmedium : far.medium name = near.medium name := Sum.inl.inj (Option.some.inj h.kept_eq)
  refine .ok rfl rfl ?_
  dsimp only
  rw [hmedium]
  exact h.puts (puts_setMedium ..) (puts_setMedium ..)

theorem opens_ram (name : String) : Opens ground (.ram name) (pure (.ram name)) := by
  intro origin origin' base far near h
  obtain rfl := h.far_origin
  obtain rfl := h.near_origin
  exact .ok rfl rfl rfl h

theorem opens_refuse (error : Error) :
    Opens ground medium (liftM (refuse error : Except Failure Device)) :=
  fun h => .error rfl rfl h

/-- An opening of a file that is there gives it as it is. -/
theorem run_openFile_found {world : World} {path : String} {place : Place} {number : Nat}
    (hleads : world.files.Leads path place) (hentry : world.files.entryAt place = some (.file number)) :
    let length := (world.files.body number).length
    (World.openFile path).run world = .ok (.file ⟨path, number, length, length, some length⟩) world := by
  have hopen : world.files.openFile path = .ok (number, world.files) := by
    rw [hleads.openFile_eq, hentry]
  exact run_openFile hopen

/-- An opening of a file that is missing makes it. -/
theorem run_openFile_missing {world : World} {path : String} {place : Place}
    (hleads : world.files.Leads path place) (hentry : world.files.entryAt place = none) :
    (World.openFile path).run world =
      .ok (.file ⟨path, world.files.nextNumber, 0, 0, some 0⟩)
        { world with files := (world.files.create place (.regular .empty)).2 } := by
  have hopen : world.files.openFile path =
      .ok (world.files.nextNumber, (world.files.create place (.regular .empty)).2) := by
    rw [hleads.openFile_eq, hentry]
    rfl
  have hlength : ((world.files.create place (.regular .empty)).2.body world.files.nextNumber).length =
      0 := by
    simp [FileStore.create, FileStore.createUnnamed, FileStore.body, FileBody.length]
  rw [run_openFile hopen, hlength]

theorem run_openFile_directory {world : World} {path : String} {place : Place} {number : Nat}
    (hleads : world.files.Leads path place)
    (hentry : world.files.entryAt place = some (.directory number)) :
    (World.openFile path).run world = .error (.refused (.io (.os .isDirectory))) world := by
  have hopen : world.files.openFile path = .error (.os .isDirectory) := by
    rw [hleads.openFile_eq, hentry]
  simp only [openFile, FileHandle.openAt, EStateM.run_bind, run_focus, EStateM.run_get, hopen,
    run_refuse]

/-- The opening of a file that was there at first. -/
theorem opens_openFile {first : World} (hground : ground.tree = first.tree) {path : String}
    {number : Nat} (h : first.files.openFile path = .ok (number, first.files)) :
    Opens ground (.file number) (World.openFile path) := by
  obtain ⟨place, hleads, hentry⟩ := FileStore.leads_of_openFile h
  have hfile : ground.tree[place]? = some (.file number) := hground ▸ hentry
  intro origin origin' base far near h
  obtain rfl := h.far_origin
  obtain rfl := h.near_origin
  have hbody : far.files.body number = near.files.body number :=
    Sum.inr.inj (Option.some.inj h.kept_eq)
  refine .ok
    (run_openFile_found (h.far_grown.leads hground hleads) (h.far_grown.file_of_ground hfile))
    (run_openFile_found (h.near_grown.leads hground hleads) (h.near_grown.file_of_ground hfile)) ?_ h
  simp only [Device.unnumbered, FileHandle.unnumbered, hbody]

/-- A place where nothing stands in one of two worlds is empty in the other. -/
theorem Twins.entryAt_eq_none (h : Twins ground (.place place) origin origin' base far near)
    (hfar : far.files.entryAt place = none) : near.files.entryAt place = none := by
  have hkept := h.kept_eq
  have hnone : far.origin? (.place place) = none := by simp [origin?, hfar]
  rw [kept, hnone, kept, Option.map_none, eq_comm, Option.map_eq_none_iff] at hkept
  cases hentry : near.files.entryAt place with
  | none => rfl
  | some entry =>
    cases entry with
    | file number => simp [origin?, hentry] at hkept
    | directory number =>
      rw [h.near_grown.directory_iff, ← h.far_grown.directory_iff, hfar] at hentry
      cases hentry

/-- The opening of the file at a place, which makes it if it is missing. -/
theorem opens_place {first : World} (hground : ground.tree = first.tree) {path : String}
    {place : Place} (hleads : first.files.Leads path place) :
    Opens ground (.place place) (World.openFile path) := by
  intro origin origin' base far near h
  have hfarLeads := h.far_grown.leads hground hleads
  have hnearLeads := h.near_grown.leads hground hleads
  have horigin := h.far_origin
  have horigin' := h.near_origin
  have hkept := h.kept_eq
  cases hfar : far.files.entryAt place with
  | none =>
    have hnear := h.entryAt_eq_none hfar
    obtain rfl : origin = none := by rw [← horigin, origin?, hfar]
    obtain rfl : origin' = none := by rw [← horigin', origin?, hnear]
    refine .ok (run_openFile_missing hfarLeads hfar) (run_openFile_missing hnearLeads hnear) rfl ?_
    exact h.makes (makes_create far place) (makes_create near place) hfar hnear
  | some entry =>
    cases entry with
    | directory number =>
      have hnear := (h.near_grown.directory_iff number).mpr ((h.far_grown.directory_iff number).mp hfar)
      exact .error (run_openFile_directory hfarLeads hfar) (run_openFile_directory hnearLeads hnear) h
    | file number =>
      have hfarSome : far.origin? (.place place) = some (.inr number) := by simp [origin?, hfar]
      rw [kept_eq hfarSome, eq_comm, kept, Option.map_eq_some_iff] at hkept
      obtain ⟨found, hnearSome, hbody⟩ := hkept
      obtain ⟨number', hnear, rfl⟩ := origin?_place hnearSome
      obtain rfl := horigin.symm.trans hfarSome
      obtain rfl := horigin'.symm.trans hnearSome
      refine .ok (run_openFile_found hfarLeads hfar) (run_openFile_found hnearLeads hnear) ?_ h
      simp only [Device.unnumbered, FileHandle.unnumbered, Sum.inr.inj hbody]

end World

end TwinRegion
