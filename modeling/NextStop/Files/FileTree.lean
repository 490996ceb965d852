import NextStop.Text.Content
import Std.Data.TreeMap

/-!
# Files and folders

What the program sees of the disk, as a value: the entries under the places where they are, and
the working folder. The commands of the library work on such a tree, and log the changes that they
make to it, so that they can be made to a disk as well.

A path is a text, and only a tree can tell which place it leads to: every name in it but the last
has to lead to a folder, so that even `nowhere/..` leads nowhere if there is no `nowhere`.
-/

namespace NextStop

/-- The names on the way from the root to an entry. -/
abbrev Place := List String

namespace Path

/-- The most bytes that a name can have. -/
def longestName : Nat := 255

/-- The most bytes that a path can have. -/
def longest : Nat := 4095

/-- The names in a path, which slashes part. A name is empty where two slashes meet, and before or
after a slash at an end. -/
def names (path : String) : List String := (path.toList.splitOn '/').map String.ofList

/-- Whether a path starts at the root. -/
def isAbsolute (path : String) : Bool := path.toList.head? == some '/'

/-- The path of a file in a folder. -/
def join (folder name : String) : String :=
  if folder = "" then name
  else if folder.toList.getLast? == some '/' then folder ++ name
  else folder ++ "/" ++ name

theorem names_eq_singleton {name : String} (h : '/' ∉ name.toList) : names name = [name] := by
  simp [names, List.splitOn_eq_singleton h]

theorem names_append_slash (folder name : String) :
    names (folder ++ "/" ++ name) = names folder ++ names name := by
  have h : (folder ++ "/" ++ name).toList = folder.toList ++ '/' :: name.toList := by simp
  rw [names, h, List.splitOn_append_cons_self, List.map_append]
  rfl

/-- A name in a folder leads on from where the folder is. If the folder's path ends in a slash,
the empty name behind it gives way. -/
theorem names_join {folder name : String} (some_folder : folder ≠ "") (h : '/' ∉ name.toList) :
    names (join folder name) = names folder ++ [name] ∨
      ∃ before, names folder = before ++ [""] ∧ names (join folder name) = before ++ [name] := by
  unfold join
  rw [if_neg some_folder]
  split
  · next last =>
    right
    obtain ⟨cs, hcs⟩ : ∃ cs, folder.toList = cs ++ ['/'] := by
      rw [beq_iff_eq, List.getLast?_eq_some_iff] at last
      exact last
    have hf : folder = String.ofList cs ++ "/" := by
      rw [← String.toList_inj, hcs]; simp
    refine ⟨names (String.ofList cs), ?_, ?_⟩
    · have := names_append_slash (String.ofList cs) ""
      rw [String.append_empty] at this
      rw [hf, this]
      rfl
    · rw [hf, names_append_slash, names_eq_singleton h]
  · left
    rw [names_append_slash, names_eq_singleton h]

theorem isAbsolute_join {folder name : String} (some_folder : folder ≠ "") :
    isAbsolute (join folder name) = isAbsolute folder := by
  have h : folder.toList ≠ [] := by simpa using some_folder
  obtain ⟨c, cs, hcs⟩ := List.exists_cons_of_ne_nil h
  unfold join isAbsolute
  rw [if_neg some_folder]
  split <;> simp [hcs]

end Path

/-- What there is at a place. -/
inductive FileTree.Entry where
  | file (content : Content)
  | folder

/-- Files and folders. -/
structure FileTree where
  /-- The working folder, where paths start. -/
  here : Place
  entries : Std.TreeMap Place FileTree.Entry

namespace FileTree

/-- The tree of a working folder in which there is nothing. -/
def ofFolder (here : Place) : FileTree :=
  ⟨here, (List.range here.length).foldl (fun m n => m.insert (here.take (n + 1)) .folder) ∅⟩

/-! ## Places -/

/-- The entry at a place. The root is always a folder. -/
def entryAt (t : FileTree) (place : Place) : Option Entry :=
  if place = [] then some .folder else t.entries[place]?

/-- The place to which a name leads from another one. Only folders lead on; an empty name and `.`
stay there, and `..` goes back. -/
def step? (t : FileTree) (place : Place) (name : String) : Option Place :=
  match t.entryAt place with
  | some .folder =>
    if name = "" ∨ name = "." then some place
    else if name = ".." then some place.dropLast
    else some (place ++ [name])
  | _ => none

/-- Where a path starts. -/
def start (t : FileTree) (path : String) : Place := if Path.isAbsolute path then [] else t.here

/-- The place to which a path leads, be there an entry or not. -/
def place? (t : FileTree) (path : String) : Option Place :=
  if path = "" ∨ Path.longest < path.utf8ByteSize then none
  else (Path.names path).foldlM t.step? (t.start path)

/-! ## Reading -/

/-- The entry to which a path leads. -/
def entry? (t : FileTree) (path : String) : Option Entry := (t.place? path).bind t.entryAt

/-- What can be read at a path: the content of a file. A folder can be opened, but nothing comes
out of it. -/
def content? (t : FileTree) (path : String) : Option Content :=
  match t.entry? path with
  | some (.file content) => some content
  | some .folder => some []
  | none => none

/-- The content of a file, in which a folder has no part. -/
def file? (t : FileTree) (path : String) : Option Content :=
  match t.entry? path with
  | some (.file content) => some content
  | _ => none

/-- The entries of a folder, with their names. -/
def children (t : FileTree) (folder : String) : List (String × Entry) :=
  match t.place? folder with
  | none => []
  | some place =>
    t.entries.toList.filterMap fun (path, e) =>
      if path.dropLast = place then path.getLast?.map fun name => (name, e) else none

/-! ## Changes -/

/-- A change of files and folders. -/
inductive Change where
  /-- Makes a folder, and those on the way to it. -/
  | makeFolders (path : String)
  /-- Adds a text at the end of a file, and makes the file if there is none. -/
  | append (path text : String)

/-- Whether names only say to stay, with a `.` among them. A folder is not made in front of such
names. -/
def onlyStays (names : List String) : Bool :=
  names.contains "." && names.all fun name => name == "" || name == "."

/-- Makes the folders along names that are missing, starting at a place. Tells whether all are
there now: a file on the way prevents it, and so does a name that is too long. -/
def makeAlong (t : FileTree) (place : Place) : List String → Bool × FileTree
  | [] => (true, t)
  | name :: rest =>
    if name = "" ∨ name = "." then t.makeAlong place rest
    else if name = ".." then t.makeAlong place.dropLast rest
    else
      let next := place ++ [name]
      match t.entryAt next with
      | some .folder => t.makeAlong next rest
      | some (.file _) => (false, t)
      | none =>
        if Path.longestName < name.utf8ByteSize ∨ onlyStays rest then (false, t)
        else makeAlong { t with entries := t.entries.insert next .folder } next rest

/-- Makes a folder and those on the way to it, and tells whether it is there now. -/
def makeFolders (t : FileTree) (path : String) : Bool × FileTree :=
  if Path.longest < path.utf8ByteSize then (false, t)
  else t.makeAlong (t.start path) (Path.names path)

/-- Puts a file at a place. -/
def insertFile (t : FileTree) (place : Place) (content : Content) : FileTree :=
  { t with entries := t.entries.insert place (.file content) }

/-- Adds a text at the end of a file. The folder of the file has to be there. -/
def append? (t : FileTree) (path text : String) : Option FileTree :=
  (t.place? path).bind fun place =>
    match t.entryAt place with
    | some (.file content) => some (t.insertFile place (content ++ Content.ofString text))
    | some .folder => none
    | none =>
      if (place.getLast?.getD "").utf8ByteSize ≤ Path.longestName then
        some (t.insertFile place (Content.ofString text))
      else none

/-- The tree after a change, and whether the change could be made. -/
def after (t : FileTree) : Change → Bool × FileTree
  | .makeFolders path => t.makeFolders path
  | .append path text =>
    match t.append? path text with
    | some t => (true, t)
    | none => (false, t)

/-- Puts a file into the tree, with the folders on the way to it. -/
def put (t : FileTree) (path : String) (content : Content) : FileTree :=
  let t := (t.makeAlong (t.start path) (Path.names path).dropLast).2
  match t.place? path with
  | some place => t.insertFile place content
  | none => t

/-! ## Where paths lead -/

/-- A plain name leads from a folder to the entry of that name in it. -/
theorem step?_of_name {t : FileTree} {place : Place} (h : t.entryAt place = some .folder)
    {name : String} (named : name ≠ "" ∧ name ≠ "." ∧ name ≠ "..") :
    t.step? place name = some (place ++ [name]) := by
  simp [step?, h, named]

/-- The path of a file in a folder leads to the entry of its name in that folder. -/
theorem place?_join {t : FileTree} {folder name : String} {place : Place}
    (h : t.place? folder = some place) (is_folder : t.entryAt place = some .folder)
    (no_slash : '/' ∉ name.toList) (named : name ≠ "" ∧ name ≠ "." ∧ name ≠ "..")
    (short : (Path.join folder name).utf8ByteSize ≤ Path.longest) :
    t.place? (Path.join folder name) = some (place ++ [name]) := by
  unfold place? at h
  split at h
  · exact absurd h (by simp)
  next some_folder =>
    have some_folder : folder ≠ "" := fun e => some_folder (Or.inl e)
    have some_path : Path.join folder name ≠ "" := by
      unfold Path.join
      rw [if_neg some_folder]
      split <;> simp [some_folder]
    have hstart : t.start (Path.join folder name) = t.start folder := by
      rw [start, start, Path.isAbsolute_join some_folder]
    rw [place?, if_neg (by simp [some_path]; omega), hstart]
    rcases Path.names_join some_folder no_slash with hn | ⟨before, hf, hn⟩
    · rw [hn, List.foldlM_append, h]
      simp [step?_of_name is_folder named]
    · rw [hf, List.foldlM_append] at h
      rw [hn, List.foldlM_append]
      cases hb : before.foldlM t.step? (t.start folder) with
      | none => simp [hb] at h
      | some p =>
        have hp : t.step? p "" = some place := by simpa [hb] using h
        have : p = place := by
          unfold step? at hp
          split at hp <;> simp at hp
          exact hp
        subst this
        simp [step?_of_name is_folder named]

end FileTree

/-- Files and folders with the changes that were asked for, the last one first. -/
structure Disk where
  tree : FileTree
  log : List FileTree.Change

namespace Disk

/-- A disk on which nothing has been changed. -/
def ofTree (t : FileTree) : Disk := ⟨t, []⟩

/-- Makes a change as far as it is possible, and tells whether it is. -/
def change (d : Disk) (c : FileTree.Change) : Bool × Disk :=
  let (made, tree) := d.tree.after c
  (made, ⟨tree, c :: d.log⟩)

/-- The changes in their order. -/
def changes (d : Disk) : List FileTree.Change := d.log.reverse

end Disk

end NextStop
