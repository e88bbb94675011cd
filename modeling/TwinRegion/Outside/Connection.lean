/-
TwinRegion.Outside.Connection — database connections as far as the VFS sees them.

SQLite opens the main database of a connection at once, under its absolute
path, and looks at the first bytes of it. A connection without a name, or
in memory, has no file. Connections that are to share their databases take
up one that is open already, whatever has become of its file, and the last
of them closes it. Temporary tables are kept in memory, so that no temporary
file is ever asked for. What SQL does with the database is not modelled.
-/
import TwinRegion.Outside.Engine
import TwinRegion.Outside.Target
import TwinRegion.Sqlite.Callback

namespace TwinRegion.Sqlite

/-- An open connection. -/
inductive Connection where
  /-- The database is this connection's own, and in this file if it is in one. -/
  | alone (file : Option DatabaseFile)
  | sharing (key : DatabaseKey)
  deriving DecidableEq, Repr, Inhabited

/-- The setting that keeps temporary tables in memory. -/
def tempStoreMemory : Nat := 2

/-- The length of the header of a database file. -/
def databaseHeaderSize : Int32 := 100

/-- The bytes that SQLite wants to be free behind the name of a database, for the name
of its journal. -/
def roomAfterName : Nat := 8

/-- The longest name of a database in memory, in bytes. -/
def maxMemoryName : Nat := 1024

/-- The open flags of a main database. -/
def Target.openFlags (target : Target) : Int32 :=
  openMainDatabase |||
    match target.access with
    | .readOnly => openReadOnly
    | .readWrite => openReadWrite
    | .create | .memory => openReadWrite ||| openCreate

/-- The header of a database that is still empty cannot be read, and need not be. -/
def headerOutcome (code : Code) : Except Error Unit :=
  if code = .ok ∨ code = .shortRead then .ok () else .error (.sql .diskIo)

namespace Host

/-- Closes the file of a database. -/
def closeFile : DatabaseFile → StepM Host Unit
  | .blob file => discard <| xClose file
  | .plain file => modify fun host => host.setMachine (file.xClose host.machine)

/-- Opens the database in the blob at a path, which has to be text. -/
def openBlobDatabase (path : Path) (target : Target) : StepM Host DatabaseFile := do
  match (← xOpen (some path) target.openFlags true).file with
  | none => refuse (.sql .diskIo)
  | some file =>
    let (code, _) ← xRead file databaseHeaderSize 0
    if let .error error := headerOutcome code then
      closeFile (.blob file)
      refuse error
    return .blob file

/-- Opens the database in a file of the machine. -/
def openPlainDatabase (name : String) (path : Path) (target : Target) (locking : Bool) :
    StepM Host DatabaseFile := do
  let host ← get
  match PlainFile.xOpen host.machine (some path) target.openFlags locking target.modeOf with
  | .error code => refuse (.sql (if code = .cannotOpen then .cannotOpen name else .diskIo))
  | .ok (file, _, machine) =>
    set (host.setMachine machine)
    let (code, _) := file.xRead machine.files databaseHeaderSize 0
    if let .error error := headerOutcome code then
      closeFile (.plain file)
      refuse error
    return .plain file

/-- The name under which connections find a database that they may share: the absolute path
of its file, which it has to have. In memory the name is as it was given, except that the VFS
for that cuts it. -/
def sharedName? (host : Host) (storage : Storage) (target : Target) : Option Path :=
  if target.isInMemory then some target.file
  else if storage = .memory then some ⟨target.file.bytes.take maxMemoryName⟩
  else
    match Below.xFullPathname host.world.files target.file with
    | (.ok, path) => some path
    | _ => none

/-- Opens the database of a target, whose name leaves room for that of a journal. -/
def openDatabase (name : String) (storage : Storage) (path : Path) (target : Target) :
    StepM Host (Option DatabaseFile) := do
  if target.isInMemory then return none
  let limit := if storage = .memory then maxMemoryName else Below.maxPathname
  let length := if storage = .memory then target.file.size else path.size
  if limit < length + roomAfterName then refuse (.sql (.cannotOpen name))
  match storage with
  | .memory => return none
  | .blobs => return some (← openBlobDatabase path target)
  | .files locking => return some (← openPlainDatabase name path target locking)

/-- Opens a connection to the database of a name, through the VFS of a name unless the
database's name chooses another. -/
def connect (name vfs : String) : StepM Host Connection := do
  if let some position := nulPosition? name <|> nulPosition? vfs then
    refuse (.sql (.nulByte position))
  match Target.ofName name vfs with
  | .error cause => refuse (.sql cause)
  | .ok target =>
    let host ← get
    match host.storage? target.vfs with
    | none => refuse (.sql (.noSuchVfs target.vfs))
    | some storage =>
      if target.isTemporary then return .alone none
      match host.sharedName? storage target with
      | none => refuse (.sql (.cannotOpen name))
      | some path =>
        if ¬ target.shared then return .alone (← openDatabase name storage path target)
        let serial := if storage = .blobs then host.registered.map (·.serial) else none
        let key : DatabaseKey := ⟨target.vfs, serial, path⟩
        let open? := host.ledger.shared.any fun database => database.key = key
        if ¬ open? then
          let file ← openDatabase name storage path target
          modify fun host => host.setShared (⟨key, file, 0⟩ :: host.ledger.shared)
        modify fun host => host.setShared <| host.ledger.shared.map fun database =>
          if database.key = key then { database with connections := database.connections + 1 }
          else database
        return .sharing key

/-- Closes a connection. The last one to share a database closes that. -/
def disconnect : Connection → StepM Host Unit
  | .alone none => return
  | .alone (some file) => closeFile file
  | .sharing key => do
    let host ← get
    match host.ledger.shared.find? fun database => database.key = key with
    | none => return
    | some database =>
      let others := host.ledger.shared.filter fun database => database.key ≠ key
      if 1 < database.connections then
        set (host.setShared ({ database with connections := database.connections - 1 } :: others))
      else
        set (host.setShared others)
        if let some file := database.file then closeFile file

end Host

end TwinRegion.Sqlite
