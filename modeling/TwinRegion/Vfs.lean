/-
TwinRegion.Vfs — the file system of regions.

A path opens the database of a blob, or the journal of a database that is
already open. Both handles share one record, and the device behind it is
closed with the last of them. Only a database can make a record; only a
journal can be removed, which erases it; and a journal is present while it
has a length.
-/
import TwinRegion.Registry
import TwinRegion.Label

namespace TwinRegion

/-- The open blobs and the world that their devices are in. -/
structure Vfs (D : Type := Device) (W : Type := World) where
  registry : Registry D
  world : W
  deriving Inhabited

/-- An open region. The lock level is the handle's own: nothing is locked. -/
structure Handle where
  region : Region
  blob : BlobId
  level : Int
  deriving DecidableEq, Repr, Inhabited

namespace Vfs

def initial : Vfs := ⟨.empty, .initial⟩

variable {D W α : Type}

/-! ## Records -/

/-- Runs a step on the world. -/
def onWorld (step : StepM W α) : StepM (Vfs D W) α :=
  StepM.focus Vfs.world (fun world vfs => { vfs with world := world }) step

/-- The device of a record beside the world. -/
def attached (record : BlobRecord D) (vfs : Vfs D W) : Attached D W := ⟨record.device, vfs.world⟩

def setAttached (id : BlobId) (a : Attached D W) (vfs : Vfs D W) : Vfs D W :=
  { registry := vfs.registry.modifyRecord id fun record => { record with device := a.device }
    world := a.world }

/-- The record of a number that was given out. -/
def record (id : BlobId) : StepM (Vfs D W) (BlobRecord D) := do
  match (← get).registry.record? id with
  | some record => return record
  | none => refuse .detached

/-- Runs a step on the device of a record, given the record's partition. -/
def onBlob (id : BlobId) (step : Partition → StepM (Attached D W) α) : StepM (Vfs D W) α := do
  let record ← record id
  StepM.focus (attached record) (setAttached id) (step record.partition)

def setPartition (id : BlobId) (partition : Partition) : StepM (Vfs D W) Unit :=
  modify fun vfs =>
    { vfs with registry := vfs.registry.modifyRecord id fun record => { record with partition := partition } }

/-! ## References -/

variable [Disk (Attached D W)]

/-- Opens the blob on a device, as a record that nobody refers to yet. -/
def openBlob (name : String) (device : D) : StepM W (BlobRecord D) :=
  Attached.through device do
    let partition ← Blob.mount name
    return ⟨name, (← get).device, partition, 0⟩

/-- Takes a reference on the blob of a name. If it is not open, a database makes
the record by `create`; a journal is refused. -/
def retain (name : String) (region : Region) (create : String → StepM W (BlobRecord D)) :
    StepM (Vfs D W) BlobId := do
  match (← get).registry.lookup? name with
  | some id =>
    modify fun vfs =>
      { vfs with
        registry := vfs.registry.modifyRecord id fun record => { record with refs := record.refs + 1 } }
    return id
  | none =>
    if region = .journal then refuse (.journalAlone name)
    let record ← onWorld (create name)
    let vfs ← get
    let (id, registry) := vfs.registry.enter name { record with refs := 1 }
    set { vfs with registry := registry }
    return id

/-- Gives a reference up. The last one takes the record's name off the registry
and its device from the record, and then closes the device. -/
def relinquish (id : BlobId) : StepM (Vfs D W) Unit := do
  let record ← record id
  let refs := record.refs - 1
  let device := if refs = 0 then none else record.device
  modify fun vfs =>
    { vfs with
      registry := vfs.registry.modifyRecord id fun record => { record with refs := refs, device := device } }
  if refs = 0 then
    modify fun vfs => { vfs with registry := vfs.registry.unname record.name }
    if record.device.isSome then
      StepM.focus (attached record) (fun a vfs => { vfs with world := a.world }) Disk.close

/-- Erases the journal of a record. -/
def eraseJournal (id : BlobId) : StepM (Vfs D W) Unit := do
  setPartition id (← onBlob id Blob.eraseJournal)

/-! ## Paths -/

/-- The name of the blob that a path is about: the database's. -/
def blobName (path : String) : Region → String
  | .database => path
  | .journal => (splitJournalName path).1

/-- Opens a region of the blob at a path, on the device that `openDevice` gives for it. -/
def openVia (path : String) (region : Region) (openDevice : String → StepM W D) :
    StepM (Vfs D W) Handle := do
  let id ← retain (blobName path region) region fun name => do
    openBlob name (← openDevice name)
  return ⟨region, id, 0⟩

/-- Opens a region of the blob in the file at a path. -/
def openPath (path : String) (region : Region) : StepM Vfs Handle :=
  openVia path region World.openFile

def close (handle : Handle) : StepM (Vfs D W) Unit := relinquish handle.blob

/-- Removes a journal. Any other path is left alone, and so is a journal whose
database is not open. -/
def remove (path : String) : StepM (Vfs D W) Unit := do
  let (name, journal) := splitJournalName path
  if journal then
    match (← get).registry.lookup? name with
    | some id => eraseJournal id
    | none => return

/-- A database is present while it is open, a journal while it also has a length. -/
def present (vfs : Vfs D W) (path : String) : Bool :=
  let (name, journal) := splitJournalName path
  match vfs.registry.partition? name with
  | some partition => !journal || 0 < partition.journalSize
  | none => false

/-! ## Handles -/

/-- The partition of the blob that a handle is open on. -/
def partition (handle : Handle) : StepM (Vfs D W) Partition := do
  return (← record handle.blob).partition

def read (handle : Handle) (offset len : Nat) : StepM (Vfs D W) Bytes :=
  onBlob handle.blob fun partition => Blob.read partition handle.region offset len

def write (handle : Handle) (offset : Nat) (data : Bytes) : StepM (Vfs D W) Unit := do
  setPartition handle.blob
    (← onBlob handle.blob fun partition => Blob.write partition handle.region offset data)

def truncate (handle : Handle) (size : Nat) : StepM (Vfs D W) Unit := do
  setPartition handle.blob (Blob.truncate (← partition handle) handle.region size)

def sync (handle : Handle) (flags : Int32) : StepM (Vfs D W) Unit :=
  onBlob handle.blob fun partition => Blob.sync partition handle.region flags

/-- The length of a handle's region. -/
def regionSize (handle : Handle) : StepM (Vfs D W) Nat := do
  return (← partition handle).regionSize handle.region

end Vfs

namespace Handle

/-- Locking only ever raises the level. -/
def lock (handle : Handle) (level : Int) : Handle :=
  { handle with level := max handle.level level }

/-- Unlocking only ever lowers the level. -/
def unlock (handle : Handle) (level : Int) : Handle :=
  { handle with level := min handle.level level }

end Handle

end TwinRegion
