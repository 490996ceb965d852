import NextStop.Files.HistoryFile
import NextStop.Files.RecordFiles
import NextStop.Proofs.Files.TableRows
import NextStop.Proofs.Text.Dates

/-!
# Stop events in tables

The row that is written for a stop event gives the event back, and a table of such rows gives the
events. Not every stop event has such a row: the numbers have to be in the ranges that cells are
read in, and a direction without a name would be read as none.
-/

namespace NextStop

open Number (Range)

/-- A stop event that a row of a table can hold. -/
structure StopEvent.Storable (e : StopEvent) : Prop where
  index : e.index ≤ Range.word64.high
  time : Range.signed64.low ≤ e.time ∧ e.time ≤ Range.signed64.high
  year : Date.years.low ≤ e.serviceDate.year ∧ e.serviceDate.year ≤ Date.years.high
  tripStart : e.tripStart ≤ Range.word32.high
  scheduled : ∀ t ∈ e.scheduled, Range.signed64.low ≤ t ∧ t ≤ Range.signed64.high
  direction : e.direction ≠ some ""

/-! ## Cells -/

namespace Cells

@[simp] theorem text_toList (s : String) : text s.toList = some s := by
  rw [text, String.ofList_toList]

@[simp] theorem truth_truthText (b : Bool) : truth (Record.truthText b).toList = some b := by
  cases b <;> rfl

/-- Every number of 64 bits has few enough digits to be read. -/
theorem length_toDigits_le {n : Nat} (h : n ≤ 18446744073709551615) :
    (Nat.toDigits 10 n).length ≤ Number.mostDigits := by
  refine (Nat.length_toDigits_le_iff (by decide) (by decide)).mpr ?_
  rw [Number.mostDigits]
  omega

theorem integer_toString {n : Int}
    (h : Range.signed64.low ≤ n ∧ n ≤ Range.signed64.high) :
    integer (toString n).toList = some n := by
  have hlow : -9223372036854775808 ≤ n := h.1
  have hhigh : n ≤ 9223372036854775807 := h.2
  exact Range.readField?_toString_int (length_toDigits_le (by omega)) h

theorem index_toString {n : Nat} (h : n ≤ Range.word64.high) :
    index (toString n).toList = some n := by
  have hhigh : (n : Int) ≤ 18446744073709551615 := h
  have hdigits := length_toDigits_le (n := n) (by omega)
  rw [index, Range.readField?_toString_nat hdigits ⟨Int.natCast_nonneg n, h⟩]
  rfl

theorem seconds_toString {n : Nat} (h : n ≤ Range.word32.high) :
    seconds (toString n).toList = some n := by
  have hhigh : (n : Int) ≤ 4294967295 := h
  have hdigits := length_toDigits_le (n := n) (by omega)
  rw [seconds, Range.readField?_toString_nat hdigits ⟨Int.natCast_nonneg n, h⟩]
  rfl

/-- A value whose text is not empty is told from a value that is not there. -/
theorem emptyOr_getD {β : Type} (read : List Char → Option β) (write : β → String) {v : Option β}
    (some_text : ∀ b ∈ v, write b ≠ "") (hread : ∀ b ∈ v, read (write b).toList = some b) :
    emptyOr read ((v.map write).getD "") = some v := by
  cases v with
  | none => rfl
  | some b =>
    rw [emptyOr, Option.map_some, Option.getD_some, if_neg (some_text b rfl), hread b rfl,
      Option.map_some]

end Cells

theorem StopEventKind.ofIsArrival_isArrival (k : StopEventKind) :
    StopEventKind.ofIsArrival k.isArrival = k := by
  cases k <;> rfl

namespace HistoryFile

/-- The cells of a stop event's row in a table with its own columns. -/
def cellsOf (e : StopEvent) : Cells := ⟨columns.zip (Record.texts (.stopEvent e)), true⟩

/-- A row of a stop event is read as that event. -/
theorem event?_cellsOf {e : StopEvent} (h : e.Storable) : event? (cellsOf e) = some e := by
  have hdirection : Cells.emptyOr Cells.text (e.direction.getD "") = some e.direction := by
    have hread := Cells.emptyOr_getD Cells.text id
      (fun d hd hempty => h.direction (hd.trans (congrArg some hempty)))
      (fun d _ => Cells.text_toList d)
    rwa [Option.map_id] at hread
  have hscheduled : Cells.emptyOr Cells.integer
      ((e.scheduled.map fun t => toString t).getD "") = some e.scheduled := by
    have hread : ∀ t ∈ e.scheduled, Cells.integer (toString t).toList = some t :=
      fun t ht => Cells.integer_toString (h.scheduled t ht)
    refine Cells.emptyOr_getD _ _ (fun t ht hempty => ?_) hread
    -- An empty text is no number.
    have hnone := hread t ht
    rw [hempty] at hnone
    contradiction
  have hindex := Cells.index_toString h.index
  have htime := Cells.integer_toString h.time
  have hdate : Cells.date e.serviceDate.write.toList = some e.serviceDate :=
    Date.read?_write e.serviceDate h.year
  have hstart := Cells.seconds_toString h.tripStart
  simp only [event?, cellsOf, columns, Record.texts, Cells.required, Cells.optional, Cells.flag,
    Cells.cell?, List.zip_cons_cons, List.lookup_cons, String.reduceBEq, Option.bind_eq_bind,
    Option.bind_some, Cells.text_toList, Cells.truth_truthText, hdirection, hscheduled, hindex,
    htime, hdate, hstart, StopEventKind.ofIsArrival_isArrival]
  rfl

/-! ## Tables -/

theorem mapM_text?_ofString (texts : List String) :
    (texts.map Content.ofString).mapM Content.text? = some texts := by
  induction texts with
  | nil => rfl
  | cons s texts ih =>
    rw [List.map_cons, List.mapM_cons, Content.text?_ofString, ih]
    rfl

/-- The texts of a stop event's row. -/
def eventTexts (e : StopEvent) : List String := Record.texts (.stopEvent e)

theorem record?_eventTexts {e : StopEvent} (h : e.Storable) :
    Table.record? columns event? (columns.map Content.ofString)
      ((eventTexts e).map Content.ofString) = some e := by
  have hwidth : ¬ ((eventTexts e).map Content.ofString).length ≠
      (columns.map Content.ofString).length := by
    rw [List.length_map, List.length_map]
    exact fun hne => hne rfl
  have hcells : Table.cells? columns (some columns) (eventTexts e) = some (cellsOf e) := by
    rw [Table.cells?, if_neg (by decide)]
    rfl
  rw [Table.record?, if_neg hwidth, mapM_text?_ofString, mapM_text?_ofString, Option.bind_some,
    hcells, Option.bind_some, event?_cellsOf h]

/-- A table of stop events is read as these events. -/
theorem read_eventTexts {events : List StopEvent} (h : ∀ e ∈ events, e.Storable) :
    Table.read columns event? (Content.ofString (Csv.write (columns :: events.map eventTexts))) =
      .ok events := by
  have hfields : ∀ row ∈ columns :: events.map eventTexts, row ≠ [] := by
    intro row hrow
    rcases List.mem_cons.mp hrow with rfl | hrow
    · exact List.cons_ne_nil _ _
    · obtain ⟨e, -, rfl⟩ := List.mem_map.mp hrow
      exact List.cons_ne_nil _ _
  rw [Table.read_eq_ok_iff, Csv.records_write hfields (by decide), List.map_cons, List.tail_cons,
    List.map_map, List.forall₂_map_left_iff, List.forall₂_same]
  exact fun e he => record?_eventTexts (h e he)

end HistoryFile

end NextStop
