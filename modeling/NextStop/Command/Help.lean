import NextStop.Command.Flag
import NextStop.Text.Decimal
import NextStop.Text.Marked

/-!
# Help

The text that is printed when help is asked for: what a command is for, how it is called, and
its flags, each with its purpose, its variable and the value that it has when it is not given.
The short form puts this on one line, the full form apart, and explains the values to choose
from. Names and headings are marked for a terminal; `Help.display` leaves the marks out unless the
environment asks for them.
-/

namespace NextStop

/-- The value of a part when its flag is not given; nothing if there is none to tell. -/
def Use.shown {σ : Type} (options : σ) : Use σ → Option String
  | switch _ => none
  | natural64 part | natural32 part => some (toString (part.get options))
  | integer _ part => some (toString (part.get options))
  | time part => (part.get options).map fun n => toString n
  | double part => some (Decimal.plain (part.get options))
  | choice _ part => some (part.get options)
  | path part => if part.get options = "" then none else some (part.get options)
  | list part =>
    if (part.get options).isEmpty then none else some (",".intercalate (part.get options))

namespace Flag

variable {σ : Type}

/-- What stands for the value of a flag. -/
def placeholder (f : Flag σ) : String :=
  "<" ++ f.name.map (fun c => if c = '-' then '_' else c.toUpper) ++ ">"

/-- How a flag is given. -/
def usage (f : Flag σ) : String :=
  Marked.strong ("--" ++ f.name) ++ (if f.use.takesValue then " " ++ f.placeholder else "")

/-- The line of a flag. -/
def heading (f : Flag σ) : String :=
  (match f.letter with
    | some c => "  " ++ Marked.strong ("-" ++ c.toString) ++ ", "
    | none => "      ") ++ f.usage

/-- Remarks on the variable, the value and in the short form also the choices of a flag. -/
def remarks (full : Bool) (environment : String → Option String) (options : σ) (f : Flag σ) :
    List String :=
  let variable_ := f.variableName.map fun name =>
    "[env: " ++ name ++ "=" ++ (environment name).getD "" ++ "]"
  let value := (f.use.shown options).map fun s => "[default: " ++ s ++ "]"
  let choices := match full, f.use with
    | false, .choice choices _ =>
      some ("[possible values: " ++ ", ".intercalate (choices.map Choice.name) ++ "]")
    | _, _ => none
  [variable_, value, choices].filterMap id

/-- The values to choose from, with their meanings in a column. -/
def choiceLines (f : Flag σ) : List String :=
  match f.use with
  | .choice choices _ =>
    let width := (choices.map fun c => c.name.length).foldl max 0
    "Possible values:" :: choices.map fun c =>
      "- " ++ Marked.strong c.name ++ ": " ++ "".pushn ' ' (width - c.name.length) ++ c.about
  | _ => []

/-- The indentation of what is said about a flag. -/
def margin : String := "          "

/-- A text under the line of a flag, every line of it indented. -/
def below (f : Flag σ) (text : String) : String :=
  f.heading ++ "\n" ++ margin ++ ("\n" ++ margin).intercalate (text.splitOn "\n")

/-- What is said about a flag in the short form. -/
def summary (environment : String → Option String) (options : σ) (f : Flag σ) : String :=
  let parts := (if f.about = "" then [] else [f.about]) ++ f.remarks false environment options
  f.below (" ".intercalate parts)

/-- What is said about a flag in the full form. -/
def description (environment : String → Option String) (options : σ) (f : Flag σ) : String :=
  let choices := "\n".intercalate f.choiceLines
  let remarks := "\n".intercalate (f.remarks true environment options)
  f.below ("\n\n".intercalate ([f.about, choices, remarks].filter (· ≠ "")))

end Flag

namespace Help

/-- The name under which the program is called. -/
def program : String := "transit_predictor"

/-- How a command is called, `parts` being what follows its name. -/
def usage (name parts : String) : String :=
  Marked.title "Usage:" ++ " " ++ Marked.strong name ++ " " ++ parts

/-- The help on a command with its flags. -/
def ofCommand {σ : Type} (full : Bool) (environment : String → Option String)
    (name about : String) (needed : List String) (options : σ) (flags : List (Flag σ)) : String :=
  let neededUsage := (flags.filter fun f => needed.contains f.name).map fun f => " " ++ f.usage
  let last := "  " ++ Marked.strong "-h" ++ ", " ++ Marked.strong "--help" ++ "\n" ++
    Flag.margin ++
    (if full then "Print help (see a summary with '-h')" else "Print help (see more with '--help')")
  let entries := flags.map fun f =>
    if full then f.description environment options else f.summary environment options
  about ++ "\n\n" ++
    usage (program ++ " " ++ name) ("[OPTIONS]" ++ String.join neededUsage) ++ "\n\n" ++
    Marked.title "Options:" ++ "\n" ++
    (if full then "\n\n" else "\n").intercalate (entries ++ [last]) ++ "\n"

/-- The help on the command that gives help. -/
def ofHelp (about : String) : String :=
  about ++ "\n\n" ++ usage (program ++ " help") "[COMMAND]..." ++ "\n\n" ++
    Marked.title "Arguments:" ++ "\n  [COMMAND]...  Print help for the subcommand(s)\n"

/-- The help on the program with its commands. -/
def ofProgram (about : String) (commands : List (String × String)) : String :=
  let width := (commands.map fun c => c.1.length).foldl max 0
  let lines := commands.map fun (name, about) =>
    "  " ++ Marked.strong name ++ "".pushn ' ' (width - name.length) ++ "  " ++ about ++ "\n"
  about ++ "\n\n" ++ usage program "<COMMAND>" ++ "\n\n" ++
    Marked.title "Commands:" ++ "\n" ++ String.join lines ++ "\n" ++
    Marked.title "Options:" ++ "\n  " ++
    Marked.strong "-h" ++ ", " ++ Marked.strong "--help" ++ "  Print help\n"

/-! ## Display -/

/-- The variables that say whether marks are wanted. -/
def displayVariables : List String := ["NO_COLOR", "CLICOLOR_FORCE"]

/-- Whether the environment asks for marks in a text that may not go to a terminal. -/
def wantsMarks (environment : String → Option String) : Bool :=
  (environment "NO_COLOR").getD "" == "" && (environment "CLICOLOR_FORCE").getD "" != ""

/-- A text as it is printed. -/
def display (environment : String → Option String) (marked : String) : String :=
  if wantsMarks environment then marked else Marked.plain marked

end Help

end NextStop
