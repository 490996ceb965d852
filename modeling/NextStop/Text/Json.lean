/-!
# JSON

Values that are answered as JSON, on one line or indented. A number is kept as its text, so that
nothing is lost of it.
-/

namespace NextStop

/-- A JSON value. -/
inductive Json where
  | null
  | bool (b : Bool)
  | num (text : String)
  | str (s : String)
  | arr (items : List Json)
  | obj (fields : List (String × Json))

namespace Json

instance : Inhabited Json := ⟨null⟩

/-- A natural number. -/
def nat (n : Nat) : Json := num (toString n)

/-- A whole number. -/
def int (n : Int) : Json := num (toString n)

/-! ## Writing -/

/-- A character between quotes. Quotes, backslashes and control characters are escaped. -/
def escaped (c : Char) : String :=
  if c = '"' then "\\\""
  else if c = '\\' then "\\\\"
  else if c = '\n' then "\\n"
  else if c = '\r' then "\\r"
  else if c = '\t' then "\\t"
  else if c.toNat < 32 then
    "\\u00" ++ String.ofList [Nat.digitChar (c.toNat / 16), Nat.digitChar (c.toNat % 16)]
  else c.toString

/-- A text between quotes. -/
def quoted (s : String) : String := "\"" ++ s.foldl (fun out c => out ++ escaped c) "" ++ "\""

/-- Parts in brackets, each behind `before`, with commas between them and `last` at the end.
Without parts the brackets stand together. -/
def bracketed (opening closing before last : String) : List String → String
  | [] => opening ++ closing
  | parts => opening ++ before ++ ("," ++ before).intercalate parts ++ last ++ closing

mutual

/-- A value on one line. -/
def compact : Json → String
  | null => "null"
  | bool b => if b then "true" else "false"
  | num text => text
  | str s => quoted s
  | arr items => bracketed "[" "]" "" "" (compactItems items)
  | obj fields => bracketed "\x7b" "\x7d" "" "" (compactFields fields)

def compactItems : List Json → List String
  | [] => []
  | j :: rest => compact j :: compactItems rest

def compactFields : List (String × Json) → List String
  | [] => []
  | (k, j) :: rest => (quoted k ++ ":" ++ compact j) :: compactFields rest

end

/-- A line end and an indentation. -/
def newLine (depth : Nat) : String := "\n".pushn ' ' (2 * depth)

mutual

/-- A value with one item or field on each line, from a depth of indentation on. -/
def indented (depth : Nat) : Json → String
  | null => "null"
  | bool b => if b then "true" else "false"
  | num text => text
  | str s => quoted s
  | arr items =>
    bracketed "[" "]" (newLine (depth + 1)) (newLine depth) (indentedItems (depth + 1) items)
  | obj fields =>
    bracketed "\x7b" "\x7d" (newLine (depth + 1)) (newLine depth)
      (indentedFields (depth + 1) fields)

def indentedItems (depth : Nat) : List Json → List String
  | [] => []
  | j :: rest => indented depth j :: indentedItems depth rest

def indentedFields (depth : Nat) : List (String × Json) → List String
  | [] => []
  | (k, j) :: rest => (quoted k ++ ": " ++ indented depth j) :: indentedFields depth rest

end

end Json

end NextStop
