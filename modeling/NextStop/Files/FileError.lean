import NextStop.Files.FileTree
import NextStop.Files.Table

/-!
# Reading tables from files

A table may be missing, or have a row that does not give an entry.
-/

namespace NextStop

/-- Why a table cannot be used. -/
inductive FileError where
  /-- There is no such file. -/
  | missing (file : String)
  /-- The file has a bad row. -/
  | unreadable (file : String) (error : Table.Error)

namespace FileError

/-- What failed, in words. -/
def message : FileError → String
  | missing file => "opening " ++ file
  | unreadable file _ => "parsing " ++ file

end FileError

/-- The entries of the table in a file. -/
def FileTree.readTable {β : Type} (t : FileTree) (file : String) (known : List String)
    (make : Cells → Option β) : Except FileError (List β) :=
  match t.content? file with
  | none => .error (.missing file)
  | some content => (Table.read known make content).mapError (.unreadable file)

end NextStop
