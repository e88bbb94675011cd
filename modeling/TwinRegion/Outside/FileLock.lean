/-
TwinRegion.Outside.FileLock — how the handles of a process lock a file.

The machine locks a file for a process, not for a handle. So SQLite keeps,
for each file that is open, the level that the process has and how many
handles have a part in it, and settles between the handles by itself. The
levels go from none through shared, reserved and pending to exclusive.

A descriptor must not be closed while the process has a lock, for that would
end the lock. It lies idle until the last lock is given up, and who opens the
file in the same way takes it over.
-/
import TwinRegion.Sqlite.Code
import Std.Data.ExtTreeMap

namespace TwinRegion.Sqlite

/-- A level of locking. SQLite asks for the five below, but nothing keeps it to them. -/
abbrev LockLevel := Int

namespace LockLevel

def none : LockLevel := 0
def shared : LockLevel := 1
def reserved : LockLevel := 2
def pending : LockLevel := 3
def exclusive : LockLevel := 4

end LockLevel

/-- What SQLite keeps for a file that is open. -/
structure FileLock where
  /-- The level that the process has. -/
  level : LockLevel
  /-- How many handles share the file: fewer than none, if one gives up what it never took. -/
  sharers : Int
  /-- How many shared locks were taken and not given up. -/
  taken : Int
  handles : Nat
  /-- The access flags of the descriptors that lie idle, the last one closed first. -/
  idle : List Int32
  deriving DecidableEq, Repr, Inhabited

namespace FileLock

/-- No handle, and nothing locked. -/
def unused : FileLock := ⟨.none, 0, 0, 0, []⟩

/-- What a handle that has one level gets when it wants another: a result code, the level
that it has then, and what is kept. More than sharing is for one handle alone, and needs
one that may write. -/
def raise (lock : FileLock) (held wanted : LockLevel) (writable : Bool) :
    Code × LockLevel × FileLock :=
  if wanted ≤ held then (.ok, held, lock)
  else if held ≠ lock.level ∧ (.pending ≤ lock.level ∨ .shared < wanted) then (.busy, held, lock)
  else if wanted = .shared then
    (.ok, wanted,
      { lock with
        level := if lock.level = .reserved then lock.level else wanted
        sharers := if lock.level = .shared ∨ lock.level = .reserved then lock.sharers + 1 else 1
        taken := lock.taken + 1 })
  else
    -- From a reserved lock the way to an exclusive one leads through a pending one.
    let waits := wanted = .exclusive ∧ held = .reserved ∧ writable
    let held := if waits then .pending else held
    let lock := if waits then { lock with level := .pending } else lock
    if wanted = .exclusive ∧ 1 < lock.sharers ∧ (held ≠ .reserved ∨ writable) then (.busy, held, lock)
    else if ¬ writable then (.ioLock, held, lock)
    else (.ok, wanted, { lock with level := wanted })

/-- The level that a handle has once it goes down to the wanted one, and what is kept. The
last handle to share the file ends the lock, and the last lock the idle descriptors. -/
def lower (lock : FileLock) (held wanted : LockLevel) : LockLevel × FileLock :=
  if held ≤ wanted then (held, lock)
  else
    let level := if .shared < held then .shared else lock.level
    if wanted ≠ .none then (wanted, { lock with level := level })
    else
      let sharers := lock.sharers - 1
      let taken := lock.taken - 1
      (.none,
        { lock with
          level := if sharers = 0 then .none else level
          sharers := sharers
          taken := taken
          idle := if taken = 0 then [] else lock.idle })

/-- More than sharing goes on. -/
def isReserved (lock : FileLock) : Bool := .shared < lock.level

end FileLock

/-- The locks of the files that are open, by file number. -/
abbrev LockTable := Std.ExtTreeMap Nat FileLock

namespace LockTable

/-- The lock of a file. -/
def lock (table : LockTable) (number : Nat) : FileLock := table[number]?.getD .unused

/-- A further handle on a file. -/
def enter (table : LockTable) (number : Nat) : LockTable :=
  let lock := table.lock number
  table.insert number { lock with handles := lock.handles + 1 }

/-- Closes a handle that has a level. The last handle on a file takes its lock away. -/
def leave (table : LockTable) (number : Nat) (held : LockLevel) (access : Int32) : LockTable :=
  let (_, lock) := (table.lock number).lower held .none
  if lock.handles ≤ 1 then table.erase number
  else
    table.insert number
      { lock with
        handles := lock.handles - 1
        idle := if lock.taken = 0 then lock.idle else access :: lock.idle }

/-- The table without an idle descriptor of a file, if there is one with that access. -/
def takeIdle? (table : LockTable) (number : Nat) (access : Int32) : Option LockTable :=
  let lock := table.lock number
  if access ∈ lock.idle then
    some (table.insert number { lock with idle := lock.idle.erase access })
  else none

end LockTable

end TwinRegion.Sqlite
