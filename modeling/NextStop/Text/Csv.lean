import NextStop.Text.Content

/-!
# Comma separated values

A file of rows, each with its fields. A field that holds a comma, a quote or a line end is
written between quotes, with its own quotes doubled; a row that has one empty field is written
as a pair of quotes, since an empty line is no row.

`Csv.rows` reads any content. A row ends at a line feed or a carriage return, and further line
ends in front of the next row are skipped. A quote counts as one only at the start of a field;
what follows the closing quote is taken as it stands.
-/

namespace NextStop

namespace Csv

/-! ## Writing -/

/-- Whether a field has to be written between quotes. -/
def needsQuotes (field : List Char) : Bool :=
  field.any fun c => c == ',' || c == '"' || c == '\n' || c == '\r'

/-- A field with its quotes doubled. -/
def doubled : List Char → List Char
  | [] => []
  | c :: rest => if c = '"' then '"' :: '"' :: doubled rest else c :: doubled rest

/-- The written form of a field. -/
def fieldText (field : List Char) : List Char :=
  if needsQuotes field then '"' :: (doubled field ++ ['"']) else field

/-- The written forms of fields with commas between them. -/
def fieldsText : List (List Char) → List Char
  | [] => []
  | [field] => fieldText field
  | field :: rest => fieldText field ++ ',' :: fieldsText rest

/-- The written form of a row. -/
def rowText (fields : List String) : List Char :=
  if fields = [""] then ['"', '"', '\n'] else fieldsText (fields.map String.toList) ++ ['\n']

/-- The written form of rows. -/
def write (rows : List (List String)) : String := String.ofList (rows.flatMap rowText)

/-! ## Reading -/

/-- A row with its place. -/
structure Row where
  /-- The number of the line that was reached when the row before had been read. -/
  line : Nat
  fields : List Content

/-- Where in a row the reader is. -/
inductive Place where
  | rowStart
  | fieldStart
  /-- In a field, or in what follows the closing quote of one. -/
  | plain
  /-- Between quotes. -/
  | quoted
  /-- Behind a quote between quotes, which closes the field or is the first of two. -/
  | quoteSeen
  deriving DecidableEq

/-- The number of the line after a character. -/
def lineAfter (line : Nat) (c : Option Char) : Nat := if c = some '\n' then line + 1 else line

/-- The rows of the rest of a file: `field` holds the characters of the current field and
`fields` the fields before it, both with the last one first; `start` is the line of the current
row and `line` the line of the next character. -/
def scan (place : Place) (field : Content) (fields : List Content) (start line : Nat) :
    Content → List Row
  | [] => if place = .rowStart then [] else [⟨start, (field.reverse :: fields).reverse⟩]
  | c :: rest =>
    let next := lineAfter line c
    match place, c with
    | .quoted, some '"' => scan .quoteSeen field fields start next rest
    | .quoted, c => scan .quoted (c :: field) fields start next rest
    | .quoteSeen, some '"' => scan .quoted (c :: field) fields start next rest
    | .fieldStart, some '"' => scan .quoted field fields start next rest
    | .rowStart, some '"' => scan .quoted field fields start next rest
    | .rowStart, some '\n' => scan .rowStart field fields start next rest
    | .rowStart, some '\r' => scan .rowStart field fields start next rest
    | _, some ',' => scan .fieldStart [] (field.reverse :: fields) start next rest
    | _, some '\n' =>
      ⟨start, (field.reverse :: fields).reverse⟩ :: scan .rowStart [] [] next next rest
    | _, some '\r' =>
      ⟨start, (field.reverse :: fields).reverse⟩ :: scan .rowStart [] [] next next rest
    | _, c => scan .plain (c :: field) fields start next rest

/-- The content without the mark that some programs put in front of a text. -/
def dropMark : Content → Content
  | some '\uFEFF' :: rest => rest
  | content => content

/-- The rows of a file. -/
def rows (content : Content) : List Row := scan .rowStart [] [] 1 1 (dropMark content)

end Csv

end NextStop
