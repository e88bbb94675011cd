/-
TwinRegion.Outside.Engine — SQLite around the VFS.

SQLite looks a name up in the order of its list: first the file system
that it uses by itself, then the one registered last, then the others that
it brings along. A registration can hide those others, but not the first.

Besides, SQLite keeps what its connections have in common: the locks on the
machine's files, and the databases that are shared.
-/
import TwinRegion.Outside.PlainFile
import TwinRegion.Sqlite.Host

namespace TwinRegion.Sqlite

/-- The file that a database is in. -/
inductive DatabaseFile where
  | blob (file : OpenFile)
  | plain (file : PlainFile)
  deriving DecidableEq, Repr, Inhabited

/-- What a shared database is known by. -/
structure DatabaseKey where
  vfs : String
  /-- The number of the VFS's registration, if it is one. -/
  serial : Option Nat
  /-- The absolute path, or the name of a database in memory. -/
  name : Path
  deriving DecidableEq, Repr, Inhabited

/-- A database that connections share. -/
structure SharedDatabase where
  key : DatabaseKey
  /-- Its file, unless it is in memory. -/
  file : Option DatabaseFile
  connections : Nat
  deriving DecidableEq, Repr, Inhabited

/-- What connections have in common. -/
structure Ledger where
  locks : LockTable
  shared : List SharedDatabase

instance : Engine where
  State := Ledger
  fresh := ⟨∅, []⟩
  access files name flags := (.ok, some (Below.xAccess files name flags))

/-- Where a VFS keeps its databases. -/
inductive Storage where
  /-- In files of the machine, one for each; they are locked in the machine's way or not. -/
  | files (locking : Bool)
  | memory
  /-- In blobs. -/
  | blobs
  deriving DecidableEq, Repr, Inhabited

/-- The further file systems that SQLite brings along. -/
def Storage.broughtAlong? : String → Option Storage
  | "unix-excl" => some (.files true)
  | "unix-none" | "unix-dotfile" => some (.files false)
  | "memdb" => some .memory
  | _ => none

namespace Host

/-- What SQLite finds under a name. -/
def storage? (host : Host) (name : String) : Option Storage :=
  if name = Below.vfsName then some (.files true)
  else if host.nameInUse? = some name then some .blobs
  else Storage.broughtAlong? name

/-- What the connections in a process have in common. -/
def ledger (host : Host) : Ledger := host.engine

def setLedger (host : Host) (ledger : Ledger) : Host := { host with engine := ledger }

def setShared (host : Host) (shared : List SharedDatabase) : Host :=
  host.setLedger { host.ledger with shared := shared }

/-- The machine as the file system below works on it. -/
def machine (host : Host) : Machine := ⟨host.world.files, host.ledger.locks⟩

def setMachine (host : Host) (machine : Machine) : Host :=
  { host with world := { host.world with files := machine.files } }.setLedger
    { host.ledger with locks := machine.locks }

end Host

end TwinRegion.Sqlite
