/-
TwinRegion.Outside.Args — reading a command line.

Arguments are read from left to right and each is judged before the next
is looked at, so of a wrong argument and a request for help the first one
counts. An option has a short and a long form; its value is the rest of
the same argument, with or without an equals sign, or the next argument.
One case is judged later: if the last of the program's own options has its
value in an argument of its own, the command is read first, and help that
the command gives comes before any complaint about that value.
-/
import TwinRegion.Command.Request

namespace TwinRegion.Command

/-- Why a command line asks for nothing. -/
inductive Stop where
  /-- It asks for help, on the program or on one of its commands. -/
  | help (command : Option String)
  | usage
  deriving DecidableEq, Repr, Inhabited

/-! ## Options -/

/-- The decimal number that a text spells, with a sign or without, if it is a whole
number of 32 bits. -/
def word32? (text : String) : Option Nat :=
  let (negative, digits) :=
    match text.toList with
    | '-' :: digits => (true, digits)
    | '+' :: digits => (false, digits)
    | digits => (false, digits)
  if digits.isEmpty ∨ ¬ digits.all Char.isDigit then none
  else
    let number := digits.foldl (fun n c => n * 10 + (c.toNat - '0'.toNat)) 0
    if 1 <<< 32 ≤ number ∨ (negative ∧ number ≠ 0) then none else some number

def reportForm? : String → Option ReportForm
  | "text" => some .text
  | "json" => some .json
  | _ => none

/-- The text is a value of the kind. -/
def ValueKind.accepts (kind : ValueKind) (text : String) : Bool :=
  match kind with
  | absent => text.isEmpty
  | path => !text.isEmpty
  | word32 => (word32? text).isSome
  | form => (reportForm? text).isSome

/-- An option as it was given. -/
structure GivenOption where
  spec : OptionSpec
  value : String
  /-- The value is an argument of its own. -/
  separate : Bool

/-- What has been read of a command's arguments. -/
structure Matches where
  /-- The options given, by long name, with their values. -/
  options : List (String × String)
  positionals : List String
  deriving Repr, Inhabited

namespace Matches

def empty : Matches := ⟨[], []⟩

def value? (found : Matches) (long : String) : Option String := found.options.lookup long

/-- Notes an option. Its value has to be of the right kind, and each option may be given
once. -/
def accept (found : Matches) (given : GivenOption) : Except Stop Matches :=
  if ¬ given.spec.value.accepts given.value ∨ (found.value? given.spec.long).isSome then
    .error .usage
  else .ok { found with options := (given.spec.long, given.value) :: found.options }

/-- Notes an option that has been put off, if there is one. -/
def settle (found : Matches) : Option GivenOption → Except Stop Matches
  | some given => found.accept given
  | none => .ok found

end Matches

/-- An argument that starts with a hyphen and goes on is never a value. -/
def looksLikeOption (argument : String) : Bool :=
  argument.startsWith "-" && argument ≠ "-"

/-- An option with the value that follows it in the same argument or else in the next one. -/
def withValue (spec : OptionSpec) (attached next : Option String) : Except Stop GivenOption := do
  match spec.value, attached with
  | .absent, some _ => throw .usage
  | .absent, none => return ⟨spec, "", false⟩
  | _, some value => return ⟨spec, value, false⟩
  | _, none =>
    match next with
    | none => throw .usage
    | some value => if looksLikeOption value then throw .usage else return ⟨spec, value, true⟩

/-- Reads an argument of the form `--name` or `--name=value`. -/
def longOption (topic : Option String) (specs : List OptionSpec) (argument : List Char)
    (next : Option String) : Except Stop GivenOption := do
  let name := String.ofList (argument.takeWhile (· ≠ '='))
  let attached :=
    match argument.dropWhile (· ≠ '=') with
    | _ :: value => some (String.ofList value)
    | [] => none
  if name = "help" then
    if attached.isSome then throw .usage else throw (.help topic)
  match specs.find? (·.long = name) with
  | none => throw .usage
  | some spec => withValue spec attached next

/-- Reads an argument of the form `-n`, `-nvalue` or `-n=value`. -/
def shortOption (topic : Option String) (specs : List OptionSpec) (argument : List Char)
    (next : Option String) : Except Stop GivenOption := do
  match argument with
  | [] => throw .usage
  | letter :: rest =>
    if letter = 'h' then throw (.help topic)
    match specs.find? (·.short = some letter) with
    | none => throw .usage
    | some spec =>
      let attached :=
        match rest with
        | [] => none
        | '=' :: value => some (String.ofList value)
        | value => some (String.ofList value)
      withValue spec attached next

/-! ## Commands -/

/-- Notes a positional argument. -/
def takePositional (spec : CommandSpec) (found : Matches) (argument : String) :
    Except Stop Matches :=
  if found.positionals.length < spec.positionals.length ∧ ¬ argument.isEmpty then
    .ok { found with positionals := found.positionals ++ [argument] }
  else .error .usage

/-- Reads one option argument. -/
def readOption (topic : Option String) (specs : List OptionSpec) (argument : String)
    (next : Option String) : Except Stop GivenOption :=
  match argument.toList with
  | '-' :: '-' :: name => longOption topic specs name next
  | '-' :: letters => shortOption topic specs letters next
  | _ => .error .usage

/-- Reads the arguments of a command. After `--` all of them are positional. -/
def readCommand (spec : CommandSpec) : Matches → List String → Except Stop Matches
  | found, [] => .ok found
  | found, argument :: rest => do
    if argument = "--" then rest.foldlM (takePositional spec) found
    else if looksLikeOption argument then
      let given ← readOption (some spec.name) spec.options argument rest.head?
      let found ← found.accept given
      match given.separate, rest with
      | true, _ :: rest => readCommand spec found rest
      | _, rest => readCommand spec found rest
    else readCommand spec (← takePositional spec found argument) rest

/-- The action of a command whose arguments have been read. -/
def actionOf (spec : CommandSpec) (found : Matches) : Except Stop Action :=
  match spec.name, found.positionals with
  | "populate", [blob] =>
    let number (long : String) (default : Nat) : Nat :=
      ((found.value? long).bind word32?).getD default
    .ok (.fill blob (number "rows" defaultRows) (number "batch" defaultBatch))
  | "export", [blob, dest] => .ok (.copyOut blob dest)
  | "init", [blob] => .ok (.format blob (found.value? "force").isSome)
  | "inspect", [blob] =>
    .ok (.survey blob (((found.value? "format").bind reportForm?).getD .text))
  | _, _ => .error .usage

/-- The name of the command that gives help. -/
def helpName : String := "help"

/-- The command that gives help takes at most the name of a command. -/
def readHelp : List String → Stop
  | [] => .help none
  | [name] =>
    if name = helpName ∨ commands.any (·.name = name) then .help (some name) else .usage
  | _ => .usage

/-- Reads the arguments of the program: its own options, then a command. An option with
a separate value is put off until more of the program's own is read, or a whole command. -/
def readProgram : Matches → Option GivenOption → List String → Except Stop Request
  | _, _, [] => .error .usage
  | found, putOff, argument :: rest => do
    if argument = "--" then throw .usage
    if looksLikeOption argument then
      let found ← found.settle putOff
      let given ← readOption none programOptions argument rest.head?
      match given.separate, rest with
      | true, _ :: rest => readProgram found (some given) rest
      | _, rest => readProgram (← found.accept given) none rest
    else if argument = helpName then throw (readHelp rest)
    else
      match commands.find? (·.name = argument) with
      | none => throw .usage
      | some spec =>
        let action ← actionOf spec (← readCommand spec .empty rest)
        let found ← found.settle putOff
        return ⟨found.value? "config", action⟩

/-- The request that a command line makes. -/
def parse (arguments : List String) : Except Stop Request := readProgram .empty none arguments

end TwinRegion.Command
