import Mathlib.Data.List.Perm.Basic
import NextStop.Files.FileError
import NextStop.Proofs.Text.CsvRows

/-!
# Tables row by row

The lines of a file are numbered only for the errors: what a row gives depends on its fields, and
on the first row of the table, which names the columns. So a table is read row by row
(`Table.read_eq_ok_iff`), and a table that can be read can be read with its other rows in any order,
and gives the same entries in some order (`FileTree.readTable_rowsPermuted`).
-/

namespace NextStop

namespace Csv

/-- The files start with the same row, and have the same other rows in some order. -/
structure RowsPermuted (c c' : Content) : Prop where
  header : (records c).head? = (records c').head?
  others : (records c).tail.Perm (records c').tail

/-- A table can be written with its rows in another order. -/
theorem rowsPermuted_write {header : List String} {rows rows' : List (List String)}
    (h : ∀ row ∈ header :: rows, row ≠ []) (hmark : (rowText header).head? ≠ some '\uFEFF')
    (hperm : rows'.Perm rows) :
    RowsPermuted (Content.ofString (write (header :: rows)))
      (Content.ofString (write (header :: rows'))) := by
  have h' : ∀ row ∈ header :: rows', row ≠ [] := fun row hrow =>
    h row ((hperm.cons header).mem_iff.mp hrow)
  constructor
  · rw [records_write h hmark, records_write h' hmark]
    rfl
  · rw [records_write h hmark, records_write h' hmark]
    exact hperm.symm.map _

end Csv

namespace Table

variable {β : Type} {known : List String} {make : Cells → Option β}

/-- The entry of a row from its fields alone, in a table with the given first row. -/
def record? (known : List String) (make : Cells → Option β) (header fields : List Content) :
    Option β :=
  if fields.length ≠ header.length then none
  else (fields.mapM Content.text?).bind fun texts =>
    (cells? known (header.mapM Content.text?) texts).bind make

/-- The line of a row has no part in its entry. -/
theorem entry_eq_ok_iff {header : List Content} {row : Csv.Row} {b : β} :
    entry known make header.length (header.mapM Content.text?) row = .ok b ↔
      record? known make header row.fields = some b := by
  unfold entry record?
  split
  · simp
  · cases row.fields.mapM Content.text? with
    | none => simp
    | some texts =>
      dsimp only
      rw [Option.bind_some]
      cases (cells? known (header.mapM Content.text?) texts).bind make <;> simp

/-- Steps that can fail go through for a whole list when each one does. -/
theorem mapM_eq_ok_iff {α ε : Type} {f : α → Except ε β} {as : List α} {bs : List β} :
    as.mapM f = .ok bs ↔ List.Forall₂ (fun a b => f a = .ok b) as bs := by
  induction as generalizing bs with
  | nil =>
    rw [List.mapM_nil, List.forall₂_nil_left_iff]
    exact ⟨fun h => (Except.ok.inj h).symm, fun h => congrArg _ h.symm⟩
  | cons a as ih =>
    rw [List.mapM_cons, List.forall₂_cons_left_iff]
    constructor
    · intro h
      cases hb : f a with
      | error e => simp [hb, bind, Except.bind] at h
      | ok b =>
        cases hbs : as.mapM f with
        | error e => simp [hb, hbs, bind, Except.bind] at h
        | ok rest =>
          rw [hb, hbs] at h
          exact ⟨b, rest, rfl, ih.mp hbs, (Except.ok.inj h).symm⟩
    · rintro ⟨b, rest, hb, hrest, rfl⟩
      rw [hb, ih.mpr hrest]
      rfl

/-- What a table gives, row by row. -/
theorem read_eq_ok_iff {content : Content} {bs : List β} :
    read known make content = .ok bs ↔
      List.Forall₂
        (fun fields b => record? known make ((Csv.records content).head?.getD []) fields = some b)
        (Csv.records content).tail bs := by
  unfold read Csv.records
  cases Csv.rows content with
  | nil =>
    rw [List.map_nil, List.tail_nil, List.forall₂_nil_left_iff]
    exact ⟨fun h => (Except.ok.inj h).symm, fun h => congrArg _ h.symm⟩
  | cons header rows =>
    simp only [List.map_cons, List.tail_cons, List.head?_cons, Option.getD_some,
      List.forall₂_map_left_iff, mapM_eq_ok_iff, entry_eq_ok_iff]

/-- A table with its rows in another order gives its entries in another order. -/
theorem read_rowsPermuted {c c' : Content} (h : Csv.RowsPermuted c c') {bs : List β}
    (hread : read known make c = .ok bs) :
    ∃ bs', read known make c' = .ok bs' ∧ bs'.Perm bs := by
  obtain ⟨bs', hrows, hperm⟩ :=
    List.perm_comp_forall₂ h.others.symm (read_eq_ok_iff.mp hread)
  rw [h.header] at hrows
  exact ⟨bs', read_eq_ok_iff.mpr hrows, hperm⟩

end Table

namespace FileTree

/-- The table of one tree is in the other one too, with its rows in some order. -/
def SameRows (t t' : FileTree) (file : String) : Prop :=
  ∀ c, t.content? file = some c → ∃ c', t'.content? file = some c' ∧ Csv.RowsPermuted c c'

theorem readTable_eq_ok_iff {β : Type} {known : List String} {make : Cells → Option β}
    {t : FileTree} {file : String} {bs : List β} :
    t.readTable file known make = .ok bs ↔
      ∃ c, t.content? file = some c ∧ Table.read known make c = .ok bs := by
  unfold readTable
  cases t.content? file with
  | none => simp
  | some c => cases hread : Table.read known make c <;> simp [Except.mapError, hread]

theorem readTable_rowsPermuted {β : Type} {known : List String} {make : Cells → Option β}
    {t t' : FileTree} {file : String} (h : t.SameRows t' file) {bs : List β}
    (hread : t.readTable file known make = .ok bs) :
    ∃ bs', t'.readTable file known make = .ok bs' ∧ bs'.Perm bs := by
  obtain ⟨c, hc, hok⟩ := readTable_eq_ok_iff.mp hread
  obtain ⟨c', hc', hrows⟩ := h c hc
  obtain ⟨bs', hok', hperm⟩ := Table.read_rowsPermuted hrows hok
  exact ⟨bs', readTable_eq_ok_iff.mpr ⟨c', hc', hok'⟩, hperm⟩

end FileTree

end NextStop
