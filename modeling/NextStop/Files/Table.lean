import NextStop.Date
import NextStop.Text.Csv
import NextStop.Text.DateText
import NextStop.Text.Number

/-!
# Tables

A table is a file of comma separated values whose first row names the columns. The columns may
come in any order, and those that are not known are passed over. `Table.read` makes an entry of
every other row, from its cells; the first row that does not give one is the error.

If the names of the columns are not text, the known columns are taken to stand in their own
order.
-/

namespace NextStop

/-! ## Cells -/

/-- The cells of a row under the names of their columns. -/
structure Cells where
  cells : List (String × String)
  /-- Whether the table named its columns. -/
  named : Bool

namespace Cells

/-- The text of a cell, if the table has its column. -/
def cell? (c : Cells) (column : String) : Option String := c.cells.lookup column

/-- A cell that has to be there. -/
def required {β : Type} (c : Cells) (column : String) (read : List Char → Option β) : Option β :=
  (c.cell? column).bind fun s => read s.toList

/-- The value of a cell that may be empty. -/
def emptyOr {β : Type} (read : List Char → Option β) (s : String) : Option (Option β) :=
  if s = "" then some none else (read s.toList).map some

/-- A cell that may be empty, and whose column a table that names its columns may leave out. -/
def optional {β : Type} (c : Cells) (column : String) (read : List Char → Option β) :
    Option (Option β) :=
  match c.cell? column with
  | some s => emptyOr read s
  | none => if c.named then some none else none

/-- A cell that may be empty, and whose column any table may leave out. -/
def droppable {β : Type} (c : Cells) (column : String) (read : List Char → Option β) :
    Option (Option β) :=
  match c.cell? column with
  | some s => emptyOr read s
  | none => some none

/-- A flag, which is not set in a table without its column. -/
def flag (c : Cells) (column : String) (read : List Char → Option Bool) : Option Bool :=
  match c.cell? column with
  | some s => read s.toList
  | none => some false

/-! ### Readers of cells -/

def text (cs : List Char) : Option String := some (String.ofList cs)

def truth (cs : List Char) : Option Bool :=
  if cs = "true".toList then some true else if cs = "false".toList then some false else none

/-- A whole number of 64 bits. -/
def integer (cs : List Char) : Option Int := Number.Range.signed64.readField? cs

/-- A natural number of 64 bits. -/
def index (cs : List Char) : Option Nat := (Number.Range.word64.readField? cs).map Int.toNat

/-- A natural number of 32 bits. -/
def seconds (cs : List Char) : Option Nat := (Number.Range.word32.readField? cs).map Int.toNat

def double (cs : List Char) : Option Float := Number.double? cs

def date (cs : List Char) : Option Date := Date.read? cs

end Cells

/-! ## Tables -/

namespace Table

/-- What is wrong with a row. -/
inductive Fault where
  /-- It is shorter or longer than the first row. -/
  | unequalLengths
  /-- It has bytes that are not text. -/
  | notText
  /-- A cell has no value of its column, or a column is missing or doubled. -/
  | badCell
  deriving DecidableEq

/-- A fault, and the line that was reached before its row. -/
structure Error where
  fault : Fault
  line : Nat
  deriving DecidableEq

/-- The cells of a row of texts: under the names that the table gives, each known column at most
once, or under those of the known columns. -/
def cells? (known : List String) (names : Option (List String)) (texts : List String) :
    Option Cells :=
  match names with
  | some names =>
    if known.any fun k => 1 < names.count k then none else some ⟨names.zip texts, true⟩
  | none => some ⟨known.zip texts, false⟩

/-- The entry of a row. -/
def entry {β : Type} (known : List String) (make : Cells → Option β) (width : Nat)
    (names : Option (List String)) (row : Csv.Row) : Except Error β :=
  if row.fields.length ≠ width then .error ⟨.unequalLengths, row.line⟩
  else
    match row.fields.mapM Content.text? with
    | none => .error ⟨.notText, row.line⟩
    | some texts =>
      match (cells? known names texts).bind make with
      | none => .error ⟨.badCell, row.line⟩
      | some b => .ok b

/-- The entries of a table with known columns. -/
def read {β : Type} (known : List String) (make : Cells → Option β) (content : Content) :
    Except Error (List β) :=
  match Csv.rows content with
  | [] => .ok []
  | header :: rows =>
    rows.mapM (entry known make header.fields.length (header.fields.mapM Content.text?))

end Table

end NextStop
