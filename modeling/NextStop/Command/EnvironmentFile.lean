import NextStop.Text.Alphanumeric
import NextStop.Text.Blank
import NextStop.Text.Content

/-!
# The file of variables

Variables of the environment may also be set in a file of lines `name=value`. Variables that are
set already keep their values.

A value may have parts between quotes, in which blanks and line ends stand for themselves. After
a backslash stands one of a few characters, or `n` for a line end. Outside of single quotes
`$name` and `${name}` stand for the value of a variable, which may come from an earlier line,
and `${name=start}` for the rest of a value that begins with `start=`.
Behind a blank only a comment may follow. The first line that is not of this form ends the
reading; what was set before stays. No variable can be set to a value with a NUL character, and a
line that tries it is a failure.
-/

namespace NextStop

namespace EnvironmentFile

/-- Variables with their values, the last one set first. -/
abbrev Variables := List (String × String)

/-! ## Lines -/

/-- Where in a line the reader is, as far as that decides where the line ends. -/
inductive Spot where
  | outside
  /-- Behind a blank, where a comment may start. -/
  | blank
  | escape
  | single
  | singleEscape
  | double
  | doubleEscape
  deriving DecidableEq

/-- The spot after a character that is not between quotes and not escaped. -/
def Spot.afterPlain (c : Char) : Spot :=
  if c = '\\' then .escape
  else if c = '"' then .double
  else if c = '\'' then .single
  else .outside

/-- The spot after a character; nothing if a comment starts there. -/
def Spot.after : Spot → Char → Option Spot
  | .blank, c => if c = '#' then none else some (afterPlain c)
  | .escape, _ => some .outside
  | .outside, c =>
    if isBlank c ∧ c ≠ '\n' ∧ c ≠ '\r' then some .blank else some (afterPlain c)
  | .double, c => some (if c = '\\' then .doubleEscape else if c = '"' then .outside else .double)
  | .doubleEscape, _ => some .double
  | .single, c => some (if c = '\\' then .singleEscape else if c = '\'' then .outside else .single)
  | .singleEscape, _ => some .single

/-- Runs through a line. Gives the spot at its end, or nothing and the part before a comment. -/
def runThrough : Spot → List Char → List Char → Option Spot × List Char
  | spot, before, [] => (some spot, before.reverse)
  | spot, before, c :: rest =>
    match spot.after c with
    | none => (none, before.reverse)
    | some spot => runThrough spot (c :: before) rest

/-- A text without a line end at its end. -/
def dropLineEnd (cs : List Char) : List Char :=
  match cs.reverse with
  | '\n' :: '\r' :: rest => rest.reverse
  | '\n' :: rest => rest.reverse
  | _ => cs

/-- The lines of a file with their line ends; a line with a gap is nothing. -/
def physicalLines (content : Content) : List (Option (List Char)) :=
  let lines := content.splitOn (some '\n')
  let ended := lines.dropLast.map (· ++ [some '\n'])
  let last := (lines.getLast?).getD []
  (if last.isEmpty then ended else ended ++ [last]).map fun line => line.mapM id

/-- The lines of a file, where quotes and escapes may join some. What is nothing ends the
reading. `before` is what there is already of a line, the last character first, and `bare` tells
whether that is blank. -/
def logicalLines (before : List Char) (bare : Bool) (spot : Spot) :
    List (Option (List Char)) → List (Option (List Char))
  | [] => if spot = .outside then [] else [none]
  | none :: _ => [none]
  | some line :: rest =>
    if bare ∧ (dropBlanks line).head? = some '#' then
      some [] :: logicalLines [] true .outside rest
    else
      match runThrough spot [] line with
      | (none, part) => some (before.reverse ++ part) :: logicalLines [] true .outside rest
      | (some .outside, _) =>
        some (dropLineEnd (before.reverse ++ line)) :: logicalLines [] true .outside rest
      | (some spot, _) => logicalLines (line.reverse ++ before) (bare && line.all isBlank) spot rest

/-! ## Values -/

/-- What follows a beginning in a text, if the text has that beginning. -/
def rest? (beginning cs : List Char) : Option (List Char) :=
  if beginning.isPrefixOf cs then some (cs.drop beginning.length) else none

/-- What the variables tell for a name; nothing if there is no variable of that name. In front of
an equals sign stands the name of a variable and behind it how its value begins, up to another
equals sign: the rest of the value is told. -/
def valueOf (set : Variables) (name : List Char) : List Char :=
  let variable_ := name.takeWhile (· != '=')
  let beginning := name.drop (variable_.length + 1) ++ ['=']
  let value := (set.lookup (String.ofList variable_)).map String.toList
  (if name.contains '=' then value.bind (rest? beginning) else value).getD []

/-- What the reader of a value is in the middle of. -/
inductive Mode where
  | plain
  | single
  | double
  /-- Behind a backslash; whether between double quotes. -/
  | escape (quoted : Bool)
  /-- In a name behind a dollar sign. -/
  | name (quoted : Bool) (name : List Char)
  /-- In a name between braces. -/
  | braced (quoted : Bool) (name : List Char)
  /-- Behind a blank. -/
  | ended

/-- What a value goes on with after a name. -/
def Mode.ofQuoted (quoted : Bool) : Mode := if quoted then .double else .plain

/-- The rest of a value, `out` holding what came before, last character first. -/
def value? (set : Variables) : Mode → (out : List Char) → List Char → Option (List Char)
  | .plain, out, [] | .ended, out, [] | .escape false, out, [] => some out.reverse
  | .name false name, out, [] => some (out.reverse ++ valueOf set name.reverse)
  | _, _, [] => none
  | .ended, out, c :: rest =>
    if c = ' ' ∨ c = '\t' then value? set .ended out rest
    else if c = '#' then some out.reverse
    else none
  | .escape quoted, out, c :: rest =>
    if c = 'n' then value? set (.ofQuoted quoted) ('\n' :: out) rest
    else if c = '\\' ∨ c = '\'' ∨ c = '"' ∨ c = '$' ∨ c = ' ' then
      value? set (.ofQuoted quoted) (c :: out) rest
    else none
  | .single, out, c :: rest =>
    if c = '\'' then value? set .plain out rest else value? set .single (c :: out) rest
  | .name quoted name, out, c :: rest =>
    if isAlphanumeric c then value? set (.name quoted (c :: name)) out rest
    else if c = '\x7b' ∧ name.isEmpty then value? set (.braced quoted []) out rest
    else
      let out := (valueOf set name.reverse).reverse ++ out
      if c = '$' then value? set (.name quoted []) out rest
      else value? set (.ofQuoted quoted) (c :: out) rest
  | .braced quoted name, out, c :: rest =>
    if c = '\x7d' then
      value? set (.ofQuoted quoted) ((valueOf set name.reverse).reverse ++ out) rest
    else value? set (.braced quoted (c :: name)) out rest
  | .double, out, c :: rest =>
    if c = '$' then value? set (.name true []) out rest
    else if c = '"' then value? set .plain out rest
    else if c = '\\' then value? set (.escape true) out rest
    else value? set .double (c :: out) rest
  | .plain, out, c :: rest =>
    if c = '$' then value? set (.name false []) out rest
    else if c = '\'' then value? set .single out rest
    else if c = '"' then value? set .double out rest
    else if c = '\\' then value? set (.escape false) out rest
    else if c = ' ' ∨ c = '\t' then value? set .ended out rest
    else value? set .plain (c :: out) rest

/-! ## Assignments -/

def isLetter (c : Char) : Bool := c.isAlpha || c == '_'

/-- The name of a variable in front of a text, and what follows it. -/
def name? (cs : List Char) : Option (List Char × List Char) :=
  match cs with
  | [] => none
  | c :: _ =>
    if isLetter c then some (cs.span fun c => c.isAlphanum || c == '_' || c == '.') else none

/-- What follows an equals sign and the blanks around it. -/
def behindEquals? (cs : List Char) : Option (List Char) :=
  match dropBlanks cs with
  | '=' :: rest => some (dropBlanks rest)
  | _ => none

/-- The name of a line and the text of its value. The name may stand behind the word
`export`. -/
def assignment? (cs : List Char) : Option (List Char × List Char) :=
  (name? cs).bind fun (name, rest) =>
    match behindEquals? rest with
    | some value => some (name, value)
    | none =>
      if name = "export".toList then
        (name? (dropBlanks rest)).bind fun (name, rest) =>
          (behindEquals? rest).map fun value => (name, value)
      else none

/-- A text without the blanks at its end. -/
def dropBlanksAtEnd (cs : List Char) : List Char := (dropBlanks cs.reverse).reverse

/-- Whether nothing or only a comment is left of a line. -/
def isBare (cs : List Char) : Bool := cs.isEmpty || cs.head? == some '#'

/-- The variable of a line, if the line is not bare, `set` being the variables that are set. -/
def line? (set : Variables) (line : List Char) : Option (Option (String × String)) :=
  let cs := dropBlanks (dropBlanksAtEnd line)
  if isBare cs then some none
  else
    (assignment? cs).bind fun (name, text) =>
      if isBare text then some (some (String.ofList name, ""))
      else
        (value? set .plain [] text).map fun value =>
          some (String.ofList name, String.ofList value)

/-- A variable that cannot be set to its value. -/
structure Failure where
  name : String

/-- Sets the variables of lines. -/
def setAll (set : Variables) : List (Option (List Char)) → Except Failure Variables
  | [] => .ok set
  | none :: _ => .ok set
  | some line :: rest =>
    match line? set line with
    | none => .ok set
    | some none => setAll set rest
    | some (some (name, value)) =>
      if (set.lookup name).isSome then setAll set rest
      else if value.contains '\x00' then .error ⟨name⟩
      else setAll ((name, value) :: set) rest

/-- The variables of an environment with those of a file. -/
def load (set : Variables) (content : Content) : Except Failure Variables :=
  let content := match content with
    | some '\uFEFF' :: rest => rest
    | content => content
  setAll set (logicalLines [] true .outside (physicalLines content))

/-- Names behind dollar signs, which a reader of the file may have to look up. -/
def mentions : List Char → List String
  | [] => []
  | '$' :: '\x7b' :: rest =>
    String.ofList (rest.takeWhile fun c => c != '\x7d' && c != '=') :: mentions rest
  | '$' :: rest => String.ofList (rest.takeWhile isAlphanumeric) :: mentions rest
  | _ :: rest => mentions rest

end EnvironmentFile

end NextStop
