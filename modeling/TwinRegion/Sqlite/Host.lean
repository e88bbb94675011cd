/-
TwinRegion.Sqlite.Host — the process that SQLite runs in.

A host has at most one registration: a name under which SQLite finds the
VFS, and the blobs open in it. Each registration has a number of its own,
which the files opened through it keep; a file is of use only while that
registration lasts. It lasts as long as a blob is open.

SQLite has a list of names, each of which ends at its first NUL byte, so a
text with one is no name. Entering a name there and taking it out again is
up to SQLite, whose answers `register` and `unregister` are given; what else
SQLite keeps is the engine's own.
-/
import TwinRegion.Vfs
import TwinRegion.Settings
import TwinRegion.Sqlite.Engine

namespace TwinRegion.Sqlite

/-- Where the first NUL byte of a name is. -/
def nulPosition? (name : String) : Option Nat := name.toUTF8.toList.findIdx? (· = 0)

theorem nulPosition?_eq_none_iff {name : String} :
    nulPosition? name = none ↔ 0 ∉ name.toUTF8.toList := by
  rw [nulPosition?, List.findIdx?_eq_none_iff]
  constructor
  · intro h hnul
    simpa using h 0 hnul
  · rintro h byte hbyte
    simpa using ne_of_mem_of_not_mem hbyte h

/-- A name in SQLite's list, which is read up to its first NUL byte. -/
structure ListedName where
  bytes : List UInt8
  nul_notMem : 0 ∉ bytes

/-- The name in the list that a text gives, unless there is a NUL byte in it. -/
def ListedName.ofText (name : String) : Except Failure ListedName :=
  match h : nulPosition? name with
  | some position =>
    refuse (.badLabel ("Invalid VFS name: " ++ (SqlError.nulByte position).message))
  | none => .ok ⟨name.toUTF8.toList, nulPosition?_eq_none_iff.mp h⟩

/-- The VFS as SQLite knows it. -/
structure Registration where
  name : String
  serial : Nat
  registry : Registry
  deriving Inhabited

/-- A file that SQLite has open through a registration. -/
structure OpenFile where
  serial : Nat
  handle : Handle
  deriving DecidableEq, Repr, Inhabited

/-- A process with SQLite in it. -/
structure Host [Engine] where
  registered : Option Registration
  /-- The number of the next registration. -/
  nextSerial : Nat
  world : World
  /-- What SQLite keeps of its own. -/
  engine : Engine.State

namespace Host

variable [Engine] {α : Type}

/-- A process in a world, with nothing registered and nothing open. -/
def start (world : World) : Host := ⟨none, 0, world, Engine.fresh⟩

def initial : Host := start .initial

instance : Inhabited Host := ⟨initial⟩

def nameInUse? (host : Host) : Option String := host.registered.map (·.name)

/-- Runs a step on the registration's VFS, if that registration still lasts. -/
def onVfs (serial : Nat) (step : StepM Vfs α) : StepM Host α := do
  match (← get).registered with
  | none => throw (.fault .dangling)
  | some registration =>
    if registration.serial = serial then
      StepM.focus (fun host => (⟨registration.registry, host.world⟩ : Vfs))
        (fun vfs host =>
          { host with
            registered := some { registration with registry := vfs.registry }
            world := vfs.world }) step
    else throw (.fault .dangling)

/-- Registers the VFS under a configured name. Under the same name that is already
done; under another one it is refused. Otherwise SQLite has to have a file system below, and to
take the name. -/
def register [PatternLibrary] (settings : Settings) (hasBelow : Bool := true) (code : Code := .ok) :
    StepM Host Unit := do
  let name ← settings.label
  let host ← get
  match host.registered with
  | some registration =>
    if registration.name ≠ name.text then refuse (.otherLabel registration.name)
  | none =>
    if ¬ hasBelow then refuse .noFallbackVfs
    let _ ← ListedName.ofText name.text
    if code ≠ .ok then refuse (.registrationRefused code)
    set { host with
      registered := some ⟨name.text, host.nextSerial, .empty⟩
      nextSerial := host.nextSerial + 1 }

/-- Takes the registration back, unless a blob is open or SQLite does not let the name go. -/
def unregister (code : Code := .ok) : StepM Host Unit := do
  let host ← get
  match host.registered with
  | none => return
  | some registration =>
    if 0 < registration.registry.size then refuse (.blobsOpen registration.registry.size)
    if code ≠ .ok then refuse (.registrationRefused code)
    set { host with registered := none }

/-- The partition of the blob open under a name. -/
def partition? (host : Host) (name : String) : Option Partition := do
  (← host.registered).registry.partition? name

def openCount? (host : Host) : Option Nat := host.registered.map (·.registry.size)

end Host

end TwinRegion.Sqlite
