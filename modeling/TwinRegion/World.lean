/-
TwinRegion.World — the media and files that devices live on.

A device is a medium in memory, known by its name and shared by all who
use it, or one opening of a file. The world holds the media and the files.
`Attached` is a place for a device beside the world: once the device has
been given up, every use is refused. All of it is one `Disk`, which passes
each call on to the medium or the file concerned.
-/
import TwinRegion.Disk.Ram
import TwinRegion.Disk.File

namespace TwinRegion

/-- Something that can be opened as a blob's medium. -/
inductive Device where
  | ram (name : String)
  | file (handle : FileHandle)
  deriving DecidableEq, Repr, Inhabited

/-- All media and files. -/
structure World where
  media : Std.ExtTreeMap String RamDisk
  files : FileStore
  deriving Inhabited

namespace World

/-- No media, and a working directory with nothing in it. -/
def initial : World := ⟨∅, .initial⟩

/-- The medium of a name; one that was never there is empty and grows. -/
def medium (world : World) (name : String) : RamDisk := world.media[name]?.getD .growable

def setMedium (world : World) (name : String) (disk : RamDisk) : World :=
  { world with media := world.media.insert name disk }

/-- A file handle beside the contents of its file. -/
def fileDisk (world : World) (handle : FileHandle) : FileDisk :=
  ⟨handle, world.files.body handle.number⟩

def setFileDisk (world : World) (disk : FileDisk) : World :=
  { world with files := world.files.setBody disk.handle.number disk.body }

/-- Opens the file at a path as a device. -/
def openFile (path : String) : StepM World Device := do
  let handle ← StepM.focus World.files (fun files world => { world with files := files })
    (FileHandle.openAt path)
  return .file handle

/-- The calls that each medium has on record, oldest first, for the media that have any. -/
def calls (world : World) : List (String × List DiskCall) :=
  (world.media.toList.filter fun entry => ¬ entry.2.calls.isEmpty).map fun entry =>
    (entry.1, entry.2.calls.reverse)

/-- Clears the record of every medium. -/
def forgetCalls (world : World) : World :=
  { world with media := world.media.map fun _ disk => { disk with calls := [] } }

theorem medium_setMedium (world : World) (name other : String) (disk : RamDisk) :
    (world.setMedium name disk).medium other = if name = other then disk else world.medium other := by
  by_cases h : name = other <;>
    simp [medium, setMedium, Std.ExtTreeMap.getElem?_insert, h]

end World

/-- A device, unless it has been given up, beside the world. -/
structure Attached (D : Type := Device) (W : Type := World) where
  device : Option D
  world : W
  deriving Inhabited

namespace Attached

/-- The medium of a name, seen from here. -/
def focusRam {α : Type} (name : String) (act : StepM RamDisk α) : StepM Attached α :=
  StepM.focus (fun a => a.world.medium name)
    (fun disk a => { a with world := a.world.setMedium name disk }) act

/-- An opened file, seen from here. -/
def focusFile {α : Type} (handle : FileHandle) (act : StepM FileDisk α) : StepM Attached α :=
  StepM.focus (fun a => a.world.fileDisk handle)
    (fun disk a => { device := some (.file disk.handle), world := a.world.setFileDisk disk }) act

/-- Passes a call on to the medium or the file. -/
def call {α : Type} (onRam : StepM RamDisk α) (onFile : StepM FileDisk α) : StepM Attached α := do
  match (← get).device with
  | none => refuse .detached
  | some (.ram name) => focusRam name onRam
  | some (.file handle) => focusFile handle onFile

instance : Disk Attached where
  ready := do if (← get).device.isNone then refuse .detached
  length a :=
    match a.device with
    | none => 0
    | some (.ram name) => Disk.length (a.world.medium name)
    | some (.file handle) => Disk.length (a.world.fileDisk handle)
  read offset len := call (Disk.read offset len) (Disk.read offset len)
  write offset data := call (Disk.write offset data) (Disk.write offset data)
  sync level := call (Disk.sync level) (Disk.sync level)
  close := call Disk.close Disk.close

/-- The name that a device goes by. -/
def name (a : Attached) : String :=
  match a.device with
  | none => ""
  | some (.ram name) => name
  | some (.file handle) => handle.name

def sectorSize (a : Attached) : Nat :=
  match a.device with
  | some (.ram name) => (a.world.medium name).sectorSize
  | _ => Disk.usualSectorSize

end Attached

/-- Runs a step on a device beside the world; only the world is kept. -/
def Attached.through {D W α : Type} (device : D) (act : StepM (Attached D W) α) : StepM W α :=
  StepM.focus (fun world => (⟨some device, world⟩ : Attached D W)) (fun a _ => a.world) act

def Device.use {α : Type} (device : Device) (act : StepM Attached α) : StepM World α :=
  Attached.through device act

end TwinRegion
