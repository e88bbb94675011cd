/-
TwinRegion.Command.Run — what a command line does.

A run reads the settings, carries the action out on the world and
answers with an exit code and what goes to the two outputs. What is left
for a SQL engine to do, once the blob is open, is part of the answer.
-/
import TwinRegion.Command.Rendering
import TwinRegion.Outside.Connection
import TwinRegion.Outside.Help
import TwinRegion.Outside.Libraries
import TwinRegion.Recording

namespace TwinRegion.Command

/-- What a SQL engine is to do on an open connection. -/
inductive SqlWork where
  /-- Make the segment table if it is missing and insert rows. -/
  | insert (rows batch : Nat)
  /-- Copy the database to a file of its own. -/
  | copyTo (dest : String)
  deriving DecidableEq, Repr, Inhabited

/-- What a run leaves behind, apart from the world. -/
structure Answer where
  exitCode : Nat
  output : String
  errors : String
  /-- The blob and the work to do on it. -/
  work : Option (String × SqlWork)
  deriving Repr, Inhabited

/-! ## Reports -/

/-- What the SQL engine's result code says about its error, if it gave one. -/
def codeReport? : SqlError → Option String
  | .noSuchVfs _ | .badAuthority _ | .badCacheMode _ | .badAccessMode _ =>
    some "Error code 1: SQL error or missing database"
  | .accessNotAllowed _ => some "Error code 3: Access permission denied"
  | .diskIo => some "Error code 10: Some kind of disk I/O error occurred"
  | .cannotOpen _ => some "Error code 14: Unable to open the database file"
  | .nulByte _ | .noRows => none

/-- The causes of an error, the nearest first. -/
def causes : Error → List String
  | .io cause => [cause.message]
  | .volumeRefused _ cause => [cause.message]
  | .sql cause => cause.message :: (codeReport? cause).toList
  | .badSettings => [settingsTrouble]
  | _ => []

namespace Trouble

/-- What is reported, from the command's own words down to the last cause. -/
def chain : Trouble → List String
  | doesNotExist path => [path ++ " does not exist"]
  | tooSmall path length => [s!"{path} is {length} bytes, too small to hold a blob"]
  | needsForce path => [s!"init discards the contents of {path}; pass --force"]
  | badSettings path error => ("loading config " ++ path) :: error.message :: causes error
  | cannotCopyTo dest error => ("exporting to " ++ dest) :: causes error
  | failed error => error.message :: causes error
  | .fault reason => [reason.message?.getD "out of range"]

/-- A text whose further lines are set in by as many blanks. -/
def indented (indent : Nat) (text : String) : String :=
  ("\n" ++ "".pushn ' ' indent).intercalate (text.splitOn "\n")

/-- The report of a trouble. Several causes are numbered. -/
def report (trouble : Trouble) : String :=
  match trouble.chain with
  | [] => ""
  | [only] => "Error: " ++ only ++ "\n"
  | [first, cause] => "Error: " ++ first ++ "\n\nCaused by:\n    " ++ indented 4 cause ++ "\n"
  | first :: causes =>
    "Error: " ++ first ++ "\n\nCaused by:\n" ++ String.join
      (causes.mapIdx fun i cause => s!"    {i}: " ++ indented 7 cause ++ "\n")

end Trouble

/-! ## Runs -/

/-- The settings that a request names, or the usual ones. -/
def settingsFor (request : Request) : CommandM Settings := do
  match request.config with
  | none => return .usual
  | some path =>
    match Settings.ofFile (← get).files path with
    | .ok settings => return settings
    | .error (.refused error) => throw (.badSettings path error)
    | .error (.fault reason) => throw (.fault reason)

/-- A step of a host of its own. -/
def onHost {α : Type} (act : StepM Sqlite.Host α) : CommandM α :=
  step <| StepM.focus Sqlite.Host.start (fun host _ => host.world) act

/-- Runs a step while a connection to a blob is open, through a VFS registered for it. -/
def withConnection {α : Type} (settings : Settings) (blob : String)
    (act : StepM Sqlite.Host α) : CommandM α :=
  onHost do
    Sqlite.Host.register settings
    let connection ← Sqlite.Host.connect blob settings.name
    let value ← act
    Sqlite.Host.disconnect connection
    return value

/-- Opens a connection to a database outside of any blob, and closes it. -/
def touchDatabase (name : String) : StepM Sqlite.Host Unit := do
  Sqlite.Host.disconnect (← Sqlite.Host.connect name Sqlite.Below.vfsName)

/-- Writes an empty blob over a medium. -/
def formatFile (blob : String) (force : Bool) : CommandM Unit := do
  if ¬ force then throw (.needsForce blob)
  let device ← step (World.openFile blob)
  step <| device.use do
    discard <| (Blob.format blob : StepM Attached Partition)
    Disk.close

/-- Carries a request out. -/
def execute (request : Request) : CommandM (String × Option (String × SqlWork)) := do
  let settings ← settingsFor request
  match request.action with
  | .fill blob rows batch =>
    withConnection settings blob (pure ())
    return ("", some (blob, .insert rows batch))
  | .copyOut blob dest =>
    let outcome ← withConnection settings blob (StepM.attempt (touchDatabase dest))
    if let .error error := outcome then throw (.cannotCopyTo dest error)
    return ("", some (blob, .copyTo dest))
  | .format blob force =>
    formatFile blob force
    return ("", none)
  | .survey blob form =>
    return ((← survey blob).render form, none)

/-- Runs a command line on the world. -/
def run (arguments : List String) (world : World) : Answer × World :=
  match parse arguments with
  | .error (.help command) => (⟨0, helpOn command, "", none⟩, world)
  | .error .usage => (⟨2, "", programHelp, none⟩, world)
  | .ok request =>
    match (execute request).run world with
    | .ok (output, work) world => (⟨0, output, "", work⟩, world)
    | .error trouble world => (⟨1, "", trouble.report, none⟩, world)

end TwinRegion.Command
