/-
TwinRegion.Proofs.Holding — what is behind a device, and what a blob leaves of it.

`World.contents` is what a medium or a file holds, and `Attached.Holding`
says something of what is behind a device. A blob's own writes, to the size
word and into its window (`Partition.Confined`), leave the length of the
contents and all other bytes of them alone (`keeps_framed`); two contents
that agree so far are `FileBody.Framed`. When a blob is mounted on a device
that has just been opened, there is room for it (`ends_mount_roomy`).
-/
import TwinRegion.Proofs.Confined
import TwinRegion.Proofs.File
import TwinRegion.Proofs.HotJournal

namespace TwinRegion

open StepM Vfs TwinRegion.Partition

/-! ## Contents -/

/-- What is behind a device: a medium by its name, or a file by its number. -/
def Device.origin : Device → String ⊕ Nat
  | .ram name => .inl name
  | .file handle => .inr handle.number

/-- Contents that are not empty have been put there. -/
theorem FileStore.bodies_of_body {store : FileStore} {number : Nat} {image : Image}
    (hbody : store.body number = .regular image) (hsome : image.size ≠ 0) :
    store.bodies[number]? = some (.regular image) := by
  unfold body at hbody
  cases hthere : store.bodies[number]? with
  | none =>
    rw [hthere] at hbody
    cases hbody
    exact absurd rfl hsome
  | some body =>
    rw [hthere] at hbody
    exact congrArg some hbody

namespace World

/-- What a medium or a file holds. -/
def contents (world : World) : String ⊕ Nat → FileBody
  | .inl name => .regular (world.medium name).image
  | .inr number => world.files.body number

theorem contents_setMedium (world : World) (name : String) (disk : RamDisk) (origin : String ⊕ Nat) :
    (world.setMedium name disk).contents origin =
      if origin = .inl name then .regular disk.image else world.contents origin := by
  cases origin with
  | inl other =>
    rw [contents, medium_setMedium]
    by_cases h : name = other <;> simp [h, contents, eq_comm]
  | inr number => rfl

theorem contents_setFileDisk (world : World) (disk : FileDisk) (origin : String ⊕ Nat) :
    (world.setFileDisk disk).contents origin =
      if origin = .inr disk.handle.number then disk.body else world.contents origin := by
  cases origin with
  | inl name => rfl
  | inr number =>
    by_cases h : number = disk.handle.number
    · simp [contents, setFileDisk, FileStore.body, FileStore.setBody, h]
    · simp [contents, setFileDisk, FileStore.body, FileStore.setBody,
        Std.ExtTreeMap.getElem?_insert, h, Ne.symm h]

theorem fileDisk_setFileDisk (world : World) (disk : FileDisk) :
    (world.setFileDisk disk).fileDisk disk.handle = disk := by
  have hbody : (world.setFileDisk disk).files.body disk.handle.number = disk.body := by
    have hcontents := world.contents_setFileDisk disk (.inr disk.handle.number)
    rwa [if_pos rfl] at hcontents
  rw [fileDisk, hbody]

/-- Contents that are put where they are leave the world as it is. -/
theorem setFileDisk_of_same {world : World} {disk : FileDisk}
    (h : world.files.bodies[disk.handle.number]? = some disk.body) :
    world.setFileDisk disk = world := by
  have hbodies : world.files.bodies.insert disk.handle.number disk.body = world.files.bodies := by
    apply Std.ExtTreeMap.ext_getElem?
    intro number
    rw [Std.ExtTreeMap.getElem?_insert]
    split
    · rename_i hsame
      rw [← h, Nat.compare_eq_eq.mp hsame]
    · rfl
  rw [setFileDisk, FileStore.setBody, hbodies]

end World

/-- The bytes of contents; a device file has none. -/
def FileBody.image : FileBody → Image
  | .regular image => image
  | .null | .full => .empty

/-- The bytes behind a device. -/
def Device.image (device : Device) (world : World) : Image := (world.contents device.origin).image

/-- A device as it is when it has just been opened: a file's handle knows its length, and is where
it remembers to be. -/
def Device.Fresh (world : World) : Device → Prop
  | .ram _ => True
  | .file handle =>
    (world.fileDisk handle).Steady ∧ handle.length = (world.files.body handle.number).length

theorem FileHandle.ends_openAt (path : String) (store : FileStore) :
    (FileHandle.openAt path).Ends store
      (fun handle after => handle.remembered = some handle.position ∧
        handle.length = (after.body handle.number).length)
      (fun _ _ => True) := by
  refine .get_bind ?_
  split
  · exact .refuse trivial
  · exact .of_run_ok rfl ⟨rfl, rfl⟩

theorem World.run_openFile {path : String} {world : World} {number : Nat} {opened : FileStore}
    (h : world.files.openFile path = .ok (number, opened)) :
    let length := (opened.body number).length
    (World.openFile path).run world =
      .ok (.file ⟨path, number, length, length, some length⟩) { world with files := opened } := by
  simp only [openFile, EStateM.run_bind, run_focus, FileHandle.run_openAt h, EStateM.run_pure]

/-- Files are opened that way. -/
theorem World.fresh_of_openFile {path : String} {world after : World} {device : Device}
    (h : (World.openFile path).run world = .ok device after) : device.Fresh after := by
  have hends : (World.openFile path).Ends world (fun device after => device.Fresh after)
      (fun _ _ => True) := by
    refine (Ends.focus (FileHandle.ends_openAt path world.files)).bind (fun _ _ _ => trivial) ?_
    rintro handle _ ⟨store, rfl, hremembered, hlength⟩
    refine .pure ⟨fun image offset _ hoffset => ?_, hlength⟩
    exact Option.some.inj (hremembered.symm.trans hoffset)
  obtain ⟨hanswer, rfl⟩ := run_eq_ok_iff.mp h
  exact hends.value device hanswer

/-- A write of this length at this place is of the size word, or inside the window. -/
def Partition.Confined (capacity offset len : Nat) : Prop :=
  (offset = 0 ∧ len = wordSize) ∨ Within capacity offset len

/-- The place is outside of the size word and of the window. -/
def Partition.Outside (capacity place : Nat) : Prop :=
  (wordSize ≤ place ∧ place < blockSize) ∨ capacity ≤ place

/-- Contents of one length that have the blob's window, and the same bytes outside. -/
inductive FileBody.Framed (capacity : Nat) : FileBody → FileBody → Prop where
  | regular {before after : Image} (hroom : capacity ≤ before.size)
      (hsize : after.size = before.size)
      (hbyte : ∀ x, Outside capacity x → after.byte x = before.byte x) :
      Framed capacity (.regular before) (.regular after)
  | null : Framed capacity .null .null
  | full : Framed capacity .full .full

namespace FileBody

variable {capacity offset : Nat} {data : Bytes} {before : FileBody}

theorem Framed.image_eq {after : FileBody} (h : Framed capacity before after) :
    after.image.size = before.image.size ∧
      ∀ x, Outside capacity x → after.image.byte x = before.image.byte x := by
  cases h with
  | regular hroom hsize hbyte => exact ⟨hsize, hbyte⟩
  | null | full => exact ⟨rfl, fun _ _ => rfl⟩

theorem Framed.write {image : Image} (h : Framed capacity before (.regular image))
    (hword : wordSize ≤ capacity) (hconfined : Confined capacity offset data.size) :
    Framed capacity before (.regular (image.write offset data)) := by
  have hwords : wordSize ≤ blockSize := by decide
  cases h with
  | @regular start _ hroom hsize hbyte =>
    refine .regular hroom ?_ fun x hx => ?_
    · rw [Image.size_write, hsize]
      rcases hconfined with ⟨rfl, hlen⟩ | ⟨-, hstop⟩ <;> omega
    · rw [Image.byte_write, if_neg, hbyte x hx]
      rcases hconfined with ⟨rfl, hlen⟩ | ⟨hstart, hstop⟩ <;> rcases hx with hx | hx <;> omega

end FileBody

/-- Contents that have room for a blob of this capacity. A device file takes any. -/
def FileBody.Roomy (capacity : Nat) (body : FileBody) : Prop :=
  ∀ image, body = .regular image → capacity ≤ image.size

theorem FileBody.Roomy.framed {capacity : Nat} {body : FileBody} (h : body.Roomy capacity) :
    Framed capacity body body := by
  cases body with
  | regular image => exact .regular (h image rfl) rfl fun _ _ => rfl
  | null => exact .null
  | full => exact .full

/-! ## A device -/

namespace Attached

open FileBody

/-- The device, if it is still there, is this one, and what it holds is so. -/
structure Holding (origin : String ⊕ Nat) (held : FileBody → Prop) (a : Attached) : Prop where
  origin_eq : ∀ device, a.device = some device → device.origin = origin
  steady : ∀ handle, a.device = some (.file handle) → (a.world.fileDisk handle).Steady
  held : held (a.world.contents origin)

variable {origin : String ⊕ Nat} {held kept lost : FileBody → Prop} {a : Attached}

theorem Holding.mono (h : Holding origin held a) (hkept : ∀ body, held body → kept body) :
    Holding origin kept a :=
  ⟨h.origin_eq, h.steady, hkept _ h.held⟩

theorem holding_ram {name : String} (hdevice : a.device = some (.ram name))
    (hheld : held (.regular (a.world.medium name).image)) : Holding (.inl name) held a := by
  refine ⟨fun device hthere => ?_, fun handle hthere => ?_, hheld⟩
  · cases hdevice.symm.trans hthere
    rfl
  · cases hdevice.symm.trans hthere

theorem holding_file {handle : FileHandle} (hdevice : a.device = some (.file handle))
    (hsteady : (a.world.fileDisk handle).Steady) (hheld : held (a.world.fileDisk handle).body) :
    Holding (.inr handle.number) held a := by
  refine ⟨fun device hthere => ?_, fun other hthere => ?_, hheld⟩
  · cases hdevice.symm.trans hthere
    rfl
  · cases hdevice.symm.trans hthere
    exact hsteady

/-- A device that has just been opened holds what is behind it. -/
theorem holding_of_fresh {device : Device} {world : World} (hfresh : device.Fresh world)
    (hheld : held (world.contents device.origin)) :
    Holding device.origin held ⟨some device, world⟩ := by
  cases device with
  | ram name => exact holding_ram rfl hheld
  | file handle => exact holding_file rfl hfresh.1 hheld

/-- What a call does to a file it does through the file's device. -/
theorem ends_call_file {α : Type} {onRam : StepM RamDisk α} {onFile : StepM FileDisk α}
    {onValue : α → FileDisk → Prop} {onFailure : Failure → FileDisk → Prop} {handle : FileHandle}
    (hdevice : a.device = some (.file handle))
    (h : onFile.Ends (a.world.fileDisk handle) onValue onFailure) :
    (call onRam onFile).Ends a
      (fun value after => ∃ disk : FileDisk,
        after = ⟨some (.file disk.handle), a.world.setFileDisk disk⟩ ∧ onValue value disk)
      (fun e after => ∃ disk : FileDisk,
        after = ⟨some (.file disk.handle), a.world.setFileDisk disk⟩ ∧ onFailure e disk) := by
  have hrun : (call onRam onFile).run a = (focusFile handle onFile).run a := by
    simp only [call, EStateM.run_bind, EStateM.run_get, hdevice]
  have hcall : (focusFile handle onFile).Ends a _ _ := Ends.focus h
  exact hcall.of_run_eq hrun

/-- What a call does to the contents of a medium and of a file it does through a device. -/
theorem ends_call_holding {α : Type} {onRam : StepM RamDisk α} {onFile : StepM FileDisk α}
    (hram : ∀ disk : RamDisk, held (.regular disk.image) →
      onRam.Ends disk (fun _ after => kept (.regular after.image))
        (fun _ after => lost (.regular after.image)))
    (hfile : ∀ disk : FileDisk, disk.Steady → held disk.body →
      onFile.Ends disk (fun _ after => ∃ body, disk.Became body after ∧ kept body)
        (fun _ after => ∃ body, disk.Became body after ∧ lost body))
    (hnone : ∀ body, held body → lost body) (h : Holding origin held a) :
    (call onRam onFile).Ends a (fun _ => Holding origin kept) (fun _ => Holding origin lost) := by
  refine .get_bind ?_
  split
  · exact .refuse (h.mono hnone)
  · rename_i name hdevice
    have horigin : origin = .inl name := (h.origin_eq _ hdevice).symm
    have hmedium : ∀ {so : FileBody → Prop} {disk : RamDisk}, so (.regular disk.image) →
        Holding origin so { a with world := a.world.setMedium name disk } := by
      intro so disk hso
      rw [horigin]
      refine holding_ram hdevice ?_
      rwa [World.medium_setMedium, if_pos rfl]
    have hheld : held (.regular (a.world.medium name).image) := by
      have hheld := h.held
      rwa [horigin, World.contents] at hheld
    have hcall : (focusRam name onRam).Ends a _ _ := Ends.focus (hram (a.world.medium name) hheld)
    refine hcall.mono ?_ ?_
    · rintro _ _ ⟨disk, rfl, hkept⟩
      exact hmedium hkept
    · rintro _ _ ⟨disk, rfl, hlost⟩
      exact hmedium hlost
  · rename_i handle hdevice
    have horigin : origin = .inr handle.number := (h.origin_eq _ hdevice).symm
    have hopened : ∀ {so : FileBody → Prop} {disk : FileDisk},
        (∃ body, (a.world.fileDisk handle).Became body disk ∧ so body) →
        Holding origin so
          { device := some (.file disk.handle), world := a.world.setFileDisk disk } := by
      rintro so disk ⟨body, hbecame, hso⟩
      have hplace : origin = .inr disk.handle.number :=
        horigin.trans (congrArg Sum.inr hbecame.number_eq.symm)
      rw [hplace]
      refine holding_file rfl ?_ ?_
      · rw [World.fileDisk_setFileDisk]
        exact hbecame.steady
      · rwa [World.fileDisk_setFileDisk, hbecame.body_eq]
    have hheld : held (a.world.files.body handle.number) := by
      have hheld := h.held
      rwa [horigin, World.contents] at hheld
    have hcall : (focusFile handle onFile).Ends a _ _ :=
      Ends.focus (hfile (a.world.fileDisk handle) (h.steady handle hdevice) hheld)
    refine hcall.mono ?_ ?_
    · rintro _ _ ⟨disk, rfl, hkept⟩
      exact hopened hkept
    · rintro _ _ ⟨disk, rfl, hlost⟩
      exact hopened hlost

theorem ends_read_holding (offset len : Nat) (h : Holding origin held a) :
    (Disk.read offset len : StepM Attached Bytes).Ends a (fun _ => Holding origin held)
      (fun _ => Holding origin held) := by
  refine ends_call_holding (fun disk hheld => ?_) (fun disk hsteady hheld => ?_) (fun _ => id) h
  · refine (disk.ends_read offset len).mono ?_ ?_
    · rintro _ after ⟨-, hbecame⟩
      rwa [hbecame.image_eq]
    · intro _ after hbecame
      rwa [hbecame.image_eq]
  · exact (FileDisk.ends_read_became hsteady offset len).mono (fun _ _ h => ⟨_, h, hheld⟩)
      fun _ _ h => ⟨_, h, hheld⟩

theorem ends_sync_holding (level : SyncLevel) (h : Holding origin held a) :
    (Disk.sync level : StepM Attached Unit).Ends a (fun _ => Holding origin held)
      (fun _ => Holding origin held) := by
  refine ends_call_holding (fun disk hheld => ?_) (fun disk hsteady hheld => ?_) (fun _ => id) h
  · refine (disk.ends_sync level).mono ?_ ?_ <;>
    · intro _ after hbecame
      rwa [hbecame.image_eq]
  · exact (FileDisk.ends_sync_became hsteady level).mono (fun _ _ h => ⟨_, h, hheld⟩)
      fun _ _ h => ⟨_, h, hheld⟩

/-- A write goes through or leaves the contents alone. -/
theorem ends_write_holding {offset : Nat} {data : Bytes} (hlim : offset + data.size < Word.limit)
    (hram : ∀ image, held (.regular image) → kept (.regular (image.write offset data)))
    (hfile : ∀ body, held body → kept (body.written offset data)) (h : Holding origin held a) :
    (Disk.write offset data : StepM Attached Unit).Ends a (fun _ => Holding origin kept)
      (fun _ => Holding origin held) := by
  refine ends_call_holding (fun disk hheld => ?_) (fun disk hsteady hheld => ?_) (fun _ => id) h
  · refine (disk.ends_write offset data).mono ?_ ?_
    · intro _ after hbecame
      rw [hbecame.image_eq]
      exact hram _ hheld
    · rintro _ after ⟨hbecame, -⟩
      rwa [hbecame.image_eq]
  · exact (FileDisk.ends_write_became hsteady hlim).mono (fun _ _ h => ⟨_, h, hfile _ hheld⟩)
      fun _ _ h => ⟨_, h, hheld⟩

/-- What a write preserves of bytes, it preserves of all contents. -/
theorem preserves_write_holding {offset : Nat} {data : Bytes}
    (hlim : offset + data.size < Word.limit)
    (hwrite : ∀ image, held (.regular image) → held (.regular (image.write offset data))) :
    Preserves (Holding origin held) (Disk.write offset data : StepM Attached Unit) := by
  intro a h
  refine (ends_write_holding hlim hwrite (fun body hbody => ?_) h).reached
  cases body with
  | regular image =>
    rw [FileBody.written]
    split
    · exact hbody
    · exact hwrite image hbody
  | null | full => exact hbody

/-- What the admitted writes preserve of the contents, all calls do. -/
theorem keeps_holding {admitted : Nat → Nat → Prop}
    (hlim : ∀ offset len, admitted offset len → offset + len < Word.limit)
    (hwrite : ∀ image offset data, admitted offset data.size → held (.regular image) →
      held (.regular (image.write offset data))) :
    Disk.Keeps (Holding origin held) admitted where
  ready a h := by
    refine Ends.reached ?_
    exact .get_bind (.ite (fun _ => .refuse h) fun _ => .pure h)
  read offset len a h := (ends_read_holding offset len h).reached
  write offset data hadmitted :=
    preserves_write_holding (hlim _ _ hadmitted) fun image => hwrite image offset data hadmitted
  sync level a h := (ends_sync_holding level h).reached

/-- The calls of a blob that stays in its window leave the rest of the contents alone. -/
theorem keeps_framed {capacity : Nat} {before : FileBody} (hword : wordSize ≤ capacity)
    (hcapacity : capacity ≤ standardCapacity) :
    Disk.Keeps (Holding origin (Framed capacity before)) (Confined capacity) := by
  refine keeps_holding (fun offset len hconfined => ?_) fun image offset data hconfined h =>
    h.write hword hconfined
  have hstop : offset + len ≤ capacity := by
    rcases hconfined with ⟨rfl, hlen⟩ | ⟨-, hstop⟩ <;> omega
  exact Nat.lt_of_le_of_lt (Nat.le_trans hstop hcapacity) (by decide)

/-- A device that is closed keeps its contents, and so does everything else. -/
theorem contents_close (a : Attached) (origin : String ⊕ Nat) :
    ((Disk.close : StepM Attached Unit).reached a).world.contents origin =
      a.world.contents origin := by
  have hends : (call Disk.close Disk.close : StepM Attached Unit).Ends a
      (fun _ after => after.world.contents origin = a.world.contents origin)
      (fun _ after => after.world.contents origin = a.world.contents origin) := by
    refine .get_bind ?_
    split
    · exact .refuse rfl
    · rename_i name hdevice
      refine .of_reached ?_
      have himage := (RamDisk.ends_close (a.world.medium name)).reached.image_eq
      rw [focusRam, reached_focus]
      dsimp only
      rw [World.contents_setMedium]
      split
      · subst origin
        exact congrArg FileBody.regular himage
      · rfl
    · rename_i handle hdevice
      refine .of_run_ok rfl ?_
      dsimp only
      rw [World.contents_setFileDisk]
      split
      · subst origin
        rfl
      · rfl
  exact hends.reached

/-! ### Opening -/

theorem length_of_fresh {device : Device} {world : World} (h : device.Fresh world) :
    Disk.length (⟨some device, world⟩ : Attached) = (world.contents device.origin).length := by
  cases device with
  | ram name => rfl
  | file handle => exact h.2

/-- A device that has just been opened has room for the blob that is mounted on it. -/
theorem ends_mount_roomy {device : Device} {world : World} (h : device.Fresh world) (name : String) :
    (Blob.mount name : StepM Attached Partition).Ends ⟨some device, world⟩
      (fun partition => Holding device.origin (Roomy partition.capacity)) (fun _ _ => True) := by
  have hstart : Holding device.origin (Roomy (world.contents device.origin).length)
      ⟨some device, world⟩ := by
    refine holding_of_fresh h fun image himage => ?_
    rw [himage]
    exact Nat.le_refl _
  refine Blob.ends_mount_of_read (.get_bind ?_)
  rw [length_of_fresh h]
  refine .ite (fun hempty => ?_) fun _ => ?_
  · have hlim : standardCapacity - 1 + (#[0] : Bytes).size < Word.limit := by decide
    refine (ends_write_holding hlim (fun image _ => ?_) (fun body _ => ?_) hstart).bind
      (fun _ _ _ => trivial) fun _ _ hroomy => .pure hroomy
    · intro _ himage
      cases himage
      exact Nat.le_max_right ..
    · intro image himage
      cases body with
      | regular start =>
        cases himage
        exact Nat.le_max_right ..
      | null | full => cases himage
  · refine .check_bind (fun _ _ => trivial) fun capacity hcapacity => ?_
    obtain ⟨-, rfl⟩ := Blob.usable_eq_ok_iff.mp hcapacity
    refine (ends_read_holding 0 wordSize hstart).bind (fun _ _ _ => trivial) fun word a hword => ?_
    refine .check_bind (fun _ _ => trivial) fun place _ => ?_
    refine (ends_read_holding place wordSize hword).bind (fun _ _ _ => trivial) fun mark a hmark => ?_
    refine .check (fun partition hpartition => ?_) fun _ _ => trivial
    obtain ⟨-, -, rfl⟩ := Blob.ofWords_eq_ok_iff.mp hpartition
    exact hmark.mono fun body hroomy image himage =>
      Nat.le_trans (Nat.min_le_left ..) (hroomy image himage)

end Attached

end TwinRegion
