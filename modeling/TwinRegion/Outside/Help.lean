/-
TwinRegion.Outside.Help — the help texts of the program.

A help text says what a command is for, how it is called, and what each of
its arguments and options means. It is laid out from the same table of
commands that the command line is read by.
-/
import TwinRegion.Outside.Args

namespace TwinRegion.Command

/-- The name that the program goes by in its help. -/
def programName : String := "blobsql"

/-- A term and what it means. -/
abbrev HelpEntry := String × String

/-- A section of a help text: a heading, and below it the meanings in one column. -/
def helpSection (heading : String) (entries : List HelpEntry) : String :=
  let width := (entries.map (·.1.length)).foldl max 0
  String.join <| (heading ++ ":\n") :: entries.map fun (term, about) =>
    "  " ++ term ++ "".pushn ' ' (width - term.length) ++ "  " ++ about ++ "\n"

/-- The form of an option, with its value named after it. -/
def OptionSpec.helpEntry (spec : OptionSpec) : HelpEntry :=
  let short := match spec.short with
    | some letter => "-" ++ letter.toString ++ ", "
    | none => "    "
  let value := match spec.value with
    | .absent => ""
    | _ => " <" ++ spec.long.toUpper ++ ">"
  (short ++ "--" ++ spec.long ++ value, spec.about)

/-- The option that asks for help, which every command has. -/
def helpOption : HelpEntry := ("-h, --help", "Print help")

def PositionalSpec.term (spec : PositionalSpec) : String := "<" ++ spec.name ++ ">"

/-- What the command that gives help is for. -/
def helpAbout : String := "Print this message or the help of the given subcommand(s)"

def optionsSection (options : List OptionSpec) : String :=
  helpSection "Options" (options.map OptionSpec.helpEntry ++ [helpOption])

/-- The help on a command. -/
def CommandSpec.help (spec : CommandSpec) : String :=
  let usage := " ".intercalate <| [programName, spec.name] ++
    (if spec.options.isEmpty then [] else ["[OPTIONS]"]) ++
    spec.positionals.map PositionalSpec.term
  "\n".intercalate
    [spec.about ++ "\n",
      "Usage: " ++ usage ++ "\n",
      helpSection "Arguments" (spec.positionals.map fun p => (p.term, p.about)),
      optionsSection spec.options]

/-- The help on the program. -/
def programHelp : String :=
  "\n".intercalate
    ["Run SQLite inside a single fixed-size blob\n",
      "Usage: " ++ programName ++ " [OPTIONS] <COMMAND>\n",
      helpSection "Commands" (commands.map (fun spec => (spec.name, spec.about)) ++
        [(helpName, helpAbout)]),
      optionsSection programOptions]

/-- The help on the command that gives help, which has no options. -/
def helpOnHelp : String :=
  "\n".intercalate
    [helpAbout ++ "\n",
      "Usage: " ++ programName ++ " " ++ helpName ++ " [COMMAND]...\n",
      helpSection "Arguments" [("[COMMAND]...", "Print help for the subcommand(s)")]]

/-- The help on a command of this name, or on the program. -/
def helpOn (command : Option String) : String :=
  if command = some helpName then helpOnHelp
  else
    match command.bind fun name => commands.find? (·.name = name) with
    | some spec => spec.help
    | none => programHelp

end TwinRegion.Command
