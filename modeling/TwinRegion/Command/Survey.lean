/-
TwinRegion.Command.Survey — looking at a blob without opening it.

A survey reads the size word and the mark of the blob in a file and tells
the partition that they stand for.
-/
import TwinRegion.Blob
import TwinRegion.World

namespace TwinRegion.Command

/-- Why a command did not do what it was asked. -/
inductive Trouble where
  | doesNotExist (path : String)
  | tooSmall (path : String) (length : Nat)
  | needsForce (path : String)
  | badSettings (path : String) (error : Error)
  | cannotCopyTo (dest : String) (error : Error)
  | failed (error : Error)
  | fault (reason : Fault)
  deriving DecidableEq, Repr, Inhabited

/-- A command on the world. -/
abbrev CommandM := EStateM Trouble World

/-- A step of the library as part of a command. -/
def step {α : Type} (act : StepM World α) : CommandM α := fun world =>
  match act.run world with
  | .ok value world => .ok value world
  | .error (.refused error) world => .error (.failed error) world
  | .error (.fault reason) world => .error (.fault reason) world

/-- What a survey finds. -/
structure Survey where
  path : String
  sectorSize : Nat
  sectors : Nat
  word : Bytes
  mark : Bytes
  marked : Bool
  partition : Partition
  slack : Nat
  ceiling : Nat
  deriving DecidableEq, Repr, Inhabited

/-- Reads the partition of the blob on a device of `length` bytes. -/
def surveyDevice (path : String) (length : Nat) : StepM Attached Survey := do
  let capacity := min length standardCapacity
  let word ← Disk.read 0 wordSize
  let mark ← Disk.read (← Partition.markOffset capacity) wordSize
  let partition ← Partition.ofWords capacity word mark
  let sectorSize := (← get).sectorSize
  let sectors ← Disk.sectorsIn length sectorSize
  let slack ← partition.slack
  Disk.close
  return {
    path := path
    sectorSize := sectorSize
    sectors := sectors
    word := word
    mark := mark
    marked := Partition.isMarked mark
    partition := partition
    slack := slack
    ceiling := Partition.databaseCeiling capacity }

/-- Surveys the blob in a file. The file has to be there and to be long enough. -/
def survey (path : String) : CommandM Survey := do
  if ¬ (← get).files.pathExists path then throw (.doesNotExist path)
  let device ← step (World.openFile path)
  let length := Disk.length (⟨some device, ← get⟩ : Attached)
  if length < 2 * blockSize then throw (.tooSmall path length)
  step (device.use (surveyDevice path length))

end TwinRegion.Command
