/-
TwinRegion.Outside.PlainFile — the files of the file system below.

Under the name of its own file system SQLite never finds the blobs, even if
they are registered under it: it opens plain files. They answer in the
machine's way. A transfer must not reach past the last position of a file, a
short read fills the rest of the buffer with zeros, and a write hands the
machine no more than the low bits of its amount at once. Only a main database
can be locked.
-/
import TwinRegion.Outside.Below
import TwinRegion.Outside.FileLock
import TwinRegion.Disk.File

namespace TwinRegion.Sqlite

/-- A file that SQLite has open in the file system below. -/
structure PlainFile where
  entry : FileEntry
  /-- The flags that say what may be done with the file. -/
  access : Int32
  /-- The file is a main database and can be locked. -/
  lockable : Bool
  level : LockLevel
  deriving DecidableEq, Repr, Inhabited

/-- The machine as the file system below works on it. -/
structure Machine where
  files : FileStore
  locks : LockTable
  deriving Inhabited

namespace Machine

/-- Takes over an idle descriptor of the file at a path. -/
def takeIdle? (machine : Machine) (path : Path) (flags : Int32) : Option (FileEntry × Machine) := do
  let entry ← machine.files.entry? path
  let locks ← machine.locks.takeIdle? entry.number (flags &&& openAccess)
  return (entry, { machine with locks := locks })

end Machine

namespace PlainFile

/-! ## Opening -/

/-- The database that a file lies beside, by its name: what comes before the last
hyphen, if no dot follows that. -/
def companionOf? (path : Path) : Option Path :=
  let hyphen : UInt8 := 0x2d
  let dot : UInt8 := 0x2e
  match path.bytes.reverse.dropWhile fun byte => byte ≠ hyphen ∧ byte ≠ dot with
  | byte :: first :: rest => if byte = hyphen then some ⟨(first :: rest).reverse⟩ else none
  | _ => none

/-- The file whose access rights a new file is to have: for a companion its database, for
another file that is to keep its name the one that was asked for. -/
def modelOf? (path : Path) (flags : Int32) (modeOf : Option Path) : Option Path :=
  if anyFlag flags openCompanion then companionOf? path
  else if anyFlag flags openDeleted then none
  else modeOf

/-- The flags want a new file, and something stands at the path. -/
def isTaken (files : FileStore) (path : Path) (flags : Int32) : Bool :=
  anyFlag flags openNew && anyFlag flags openCreate && files.pathExists path &&
    ¬ path.asksForDirectory

/-- Opens what stands at a path, or makes it, in the way that the flags ask for. -/
def openEntry (files : FileStore) (path : Path) (flags : Int32) :
    Except IoError (FileEntry × FileStore) := do
  if anyFlag flags openCreate then
    let (number, files) ← files.openFile path
    return (.file number, files)
  else return (← files.openExisting path (anyFlag flags openReadWrite), files)

/-- Opens a path, and says which flags counted in the end. The rights of a new file are
looked up first, whether it is needed or not. A file that ought to be new and is not is
opened all the same, but only to be read. -/
def openPath (machine : Machine) (path : Path) (flags : Int32) (modeOf : Option Path) :
    Except Code (FileEntry × Int32 × Machine) := do
  if (modelOf? path flags modeOf).any fun model => ¬ machine.files.pathExists model then
    throw .ioStat
  let taken := isTaken machine.files path flags
  if taken ∧ ¬ anyFlag flags openReadWrite then throw .cannotOpen
  let flags := if taken then flags &&& ~~~(openReadWrite ||| openCreate) ||| openReadOnly else flags
  if let some (entry, machine) := if taken then machine.takeIdle? path flags else none then
    return (entry, flags, machine)
  match openEntry machine.files path flags with
  | .ok (entry, files) => return (entry, flags, { machine with files := files })
  | .error _ => throw .cannotOpen

/-- Opens a file without a name, which has to be made. -/
def openUnnamed (machine : Machine) (flags : Int32) : Except Code (FileEntry × Machine) := do
  if ¬ anyFlag flags openCreate then throw .cannotOpen
  let (number, files) := machine.files.createUnnamed (.regular .empty)
  return (.file number, { machine with files := files })

/-- Opens a file in the way that the flags ask for, and says which flags counted in the end.
Only a main database can be locked, and only where files are locked at all; it takes over an
idle descriptor if there is one. Only other files can do without a name. -/
def xOpen (machine : Machine) (name : NameArg) (flags : Int32) (locking : Bool)
    (modeOf : Option Path) : Except Code (PlainFile × Int32 × Machine) := do
  let isMain := flags &&& openKind = openMainDatabase
  let (entry, flags, machine) ← match name with
    | none =>
      if isMain then throw .cannotOpen
      let (entry, machine) ← openUnnamed machine flags
      pure (entry, flags, machine)
    | some path =>
      let (entry, flags, machine) ←
        match if isMain then machine.takeIdle? path flags else none with
        | some (entry, machine) => pure (entry, flags, machine)
        | none => openPath machine path flags modeOf
      let files := if anyFlag flags openDeleted then (Below.xDelete machine.files path).2
        else machine.files
      pure (entry, flags, { machine with files := files })
  let lockable := isMain && locking
  let locks := if lockable then machine.locks.enter entry.number else machine.locks
  return (⟨entry, flags &&& openAccess, lockable, .none⟩, flags, { machine with locks := locks })

/-- Closes a file, which gives up its locks. -/
def xClose (file : PlainFile) (machine : Machine) : Machine :=
  if file.lockable then
    { machine with locks := machine.locks.leave file.entry.number file.level file.access }
  else machine

/-! ## Transfers -/

def writable (file : PlainFile) : Bool := anyFlag file.access openReadWrite

/-- The contents of the file, or nothing for a directory. -/
def body? (file : PlainFile) (files : FileStore) : Option FileBody :=
  match file.entry with
  | .file number => some (files.body number)
  | .directory _ => none

/-- Where a transfer of `count` bytes starts, if it stays within the positions of a file. -/
def start? (offset : Int64) (count : Nat) : Option Nat :=
  if offset < 0 ∨ FileDisk.positionLimit ≤ offset.toNatClampNeg + count then none
  else some offset.toNatClampNeg

/-- The bytes that the machine finds: the wanted ones as far as the file goes. -/
def readBytes? (file : PlainFile) (files : FileStore) (offset : Int64) (wanted : Nat) :
    Option Bytes := do
  let body ← file.body? files
  let start ← start? offset wanted
  match body with
  | .full => return Bytes.zeros wanted
  | .null => return #[]
  | .regular image => return image.read start (min wanted (image.size - start))

/-- What a buffer of `amount` bytes holds after a read, and whether the file filled it. The
machine takes no negative amount, and says so by the number -1: of that amount it has read
as much as was wanted. -/
def xRead (file : PlainFile) (files : FileStore) (amount : Int32) (offset : Int64) :
    Code × Option Bytes :=
  if amount < 0 then if amount = -1 then (.ok, some #[]) else (.ioRead, none)
  else
    let wanted := amount.toNatClampNeg
    match file.readBytes? files offset wanted with
    | none => (.ioRead, none)
    | some bytes =>
      (if bytes.size = wanted then .ok else .shortRead,
        some (bytes ++ Bytes.zeros (wanted - bytes.size)))

/-- The bits of an amount that the machine is handed. -/
def chunkBits : Int32 := 0x1ffff

/-- Hands the machine bytes for an offset. -/
def writeBytes (file : PlainFile) (files : FileStore) (data : Bytes) (offset : Int64) :
    Except Code FileStore :=
  match file.entry, start? offset data.size with
  | .file number, some start =>
    if ¬ file.writable then .error .ioWrite
    else
      match files.body number with
      | .full => .error .full
      | .null => .ok files
      | .regular image =>
        .ok (if data.isEmpty then files else files.setBody number (.regular (image.write start data)))
  | _, _ => .error .ioWrite

/-- The first bytes of `data`. What lies behind it in memory counts as zeros. -/
def chunkOf (data : Bytes) (count : Nat) : Bytes :=
  data.extract 0 count ++ Bytes.zeros (count - data.size)

/-- Writes the first `amount` bytes of `data`, by one chunk: an amount that is more than its
low bits say meets no room after them. A negative amount is content with anything, and its
low bits may well reach behind the data. -/
def xWrite (file : PlainFile) (files : FileStore) (data : Bytes) (amount : Int32)
    (offset : Int64) : Code × FileStore :=
  let chunk := amount &&& chunkBits
  match file.writeBytes files (chunkOf data chunk.toNatClampNeg) offset with
  | .ok files => (if chunk < amount then .full else .ok, files)
  | .error code => (if amount < 0 then .ok else code, files)

def xTruncate (file : PlainFile) (files : FileStore) (size : Int64) : Code × FileStore :=
  match file.entry, file.body? files with
  | .file number, some (.regular image) =>
    if ¬ file.writable ∨ size < 0 then (.ioTruncate, files)
    else (.ok, files.setBody number (.regular (image.resize size.toNatClampNeg)))
  | _, _ => (.ioTruncate, files)

def xSync (file : PlainFile) (files : FileStore) : Code :=
  match file.body? files with
  | some (.regular _) | none => .ok
  | some .null | some .full => .ioSync

/-- The length of the file. A single byte counts as none. -/
def xFileSize (file : PlainFile) (files : FileStore) : Nat :=
  let length := (file.body? files).elim 0 FileBody.length
  if length = 1 then 0 else length

/-! ## Locks -/

def xLock (file : PlainFile) (locks : LockTable) (wanted : LockLevel) :
    Code × PlainFile × LockTable :=
  if file.lockable then
    let number := file.entry.number
    let (code, level, lock) := (locks.lock number).raise file.level wanted file.writable
    (code, { file with level := level }, locks.insert number lock)
  else (.ok, file, locks)

def xUnlock (file : PlainFile) (locks : LockTable) (wanted : LockLevel) : PlainFile × LockTable :=
  if file.lockable then
    let number := file.entry.number
    let (level, lock) := (locks.lock number).lower file.level wanted
    ({ file with level := level }, locks.insert number lock)
  else (file, locks)

/-- Some handle on the file has more than a shared lock. -/
def reservedHeld (file : PlainFile) (locks : LockTable) : Bool :=
  file.lockable && (locks.lock file.entry.number).isReserved

/-- No control code is answered. -/
def controlCode : Code := .notFound

/-! ## Which methods there are -/

def version : Nat := 3
def sectorSize : Nat := 4096

/-- What is promised of the machine: a write that loses power leaves the bytes around it alone. -/
def characteristics : Nat := 0x1000

/-- Only a main database can be shared through memory. -/
def sharedMemory (file : PlainFile) : Bool := file.lockable

def fetch : Bool := true

end PlainFile

end TwinRegion.Sqlite
