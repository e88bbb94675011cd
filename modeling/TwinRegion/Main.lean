/-
TwinRegion.Main — the program.

The files that a command line names are taken into a world, the command
runs on that world, and a blob that has changed is put back. The SQL that
a command calls for is work for an engine, which this program has not got:
it opens the blob and says so.
-/
import TwinRegion.Command.Run

namespace TwinRegion.Command

/-- The target of a database's name, if it makes sense. -/
def target? (name : String) : Option Sqlite.Target :=
  (Sqlite.Target.ofName name Sqlite.Below.vfsName).toOption

/-- The path in the name of a database, if there is one. -/
def databasePath? (name : String) : Option String := do (← target? name).file.text?

/-- The files that a database's name speaks of: its own, and the one to take access rights from. -/
def databasePaths (name : String) : List String :=
  ((target? name).elim [] fun target => target.file :: target.modeOf.toList).filterMap Path.text?

/-- The file that an action may change, if there is one. -/
def Action.path? : Action → Option String
  | .fill blob _ _ | .copyOut blob _ => databasePath? blob
  | .format blob _ => some blob
  | .survey _ _ => none

/-- The files that an action has to do with. -/
def Action.paths : Action → List String
  | .fill blob _ _ => databasePaths blob
  | .copyOut blob dest => databasePaths blob ++ databasePaths dest
  | .format blob _ | .survey blob _ => [blob]

/-- The files that a request names. -/
def Request.paths (request : Request) : List String :=
  request.config.toList ++ request.action.paths

/-- Every directory on the way to a path, the outermost first. -/
def parents (path : String) : List String :=
  let names := (path.splitOn "/").filter (· ≠ "")
  let start := if path.startsWith "/" then "/" else ""
  (List.range names.length).tail.map fun n => start ++ "/".intercalate (names.take n)

/-- What stands at a path of the machine. -/
inductive Found where
  | nothing
  | directory
  | file (contents : Bytes)

def lookAt (path : String) : IO Found := do
  try
    return .file (← IO.FS.readBinFile path).data
  catch error =>
    match error with
    | .inappropriateType .. => return .directory
    | _ => return .nothing

/-- Takes what stands at a path of the machine, and the way there, into a world. -/
def takeIn (world : World) (path : String) : IO World := do
  let mut files := world.files
  for place in parents path ++ [path] do
    match ← lookAt place with
    | .nothing => pure ()
    | .directory => files := files.makeDirectory place
    | .file contents => files := files.putFile place (Image.empty.write 0 contents)
  return { world with files := files }

/-- Puts a file of a world back on the machine. -/
def putBack (world : World) (path : String) : IO Unit := do
  if let some number := world.files.fileNumber? path then
    let image := world.files.image number
    IO.FS.writeBinFile path ⟨image.read 0 image.size⟩

/-- Runs a request on the machine's files. -/
def perform (arguments : List String) (request : Request) : IO UInt32 := do
  let world ← request.paths.foldlM takeIn World.initial
  let (answer, world) := run arguments world
  if let some path := request.action.path? then putBack world path
  IO.print answer.output
  IO.eprint answer.errors
  if let some (blob, _) := answer.work then
    IO.eprintln (blob ++ " is open, but there is no SQL engine to work on it")
    return 1
  return UInt32.ofNat answer.exitCode

end TwinRegion.Command

/-- The program: one command line, one exit code. -/
def main (arguments : List String) : IO UInt32 := do
  match TwinRegion.Command.parse arguments with
  | .ok request => TwinRegion.Command.perform arguments request
  | .error _ =>
    let (answer, _) := TwinRegion.Command.run arguments TwinRegion.World.initial
    IO.print answer.output
    IO.eprint answer.errors
    return UInt32.ofNat answer.exitCode
