import NextStop.Text.Csv

/-!
# Written rows read back

Rows that are written are read back field by field, whatever characters the fields hold. The
reader goes through a field one character at a time, so that its way is followed over a whole field
first: `Csv.scan_fieldText` says that behind a written field the reader holds that field and is at a
place where a comma or a line end closes it. The only row that this does not cover is that of one
empty field, which is why it is written with quotes.
-/

namespace NextStop

namespace Csv

/-! ## Single characters -/

theorem scan_comma {p : Place} (hp : p ≠ .quoted) (field : Content) (fields : List Content)
    (start line : Nat) (rest : Content) :
    scan p field fields start line (some ',' :: rest) =
      scan .fieldStart [] (field.reverse :: fields) start line rest := by
  cases p with
  | quoted => contradiction
  | rowStart => rfl
  | fieldStart => rfl
  | plain => rfl
  | quoteSeen => rfl

theorem scan_lineEnd {p : Place} (hp : p ≠ .quoted) (hstart : p ≠ .rowStart) (field : Content)
    (fields : List Content) (start line : Nat) (rest : Content) :
    scan p field fields start line (some '\n' :: rest) =
      ⟨start, (field.reverse :: fields).reverse⟩ ::
        scan .rowStart [] [] (line + 1) (line + 1) rest := by
  cases p with
  | quoted => contradiction
  | rowStart => contradiction
  | fieldStart => rfl
  | plain => rfl
  | quoteSeen => rfl

/-- The characters that make quotes necessary. -/
theorem needsQuotes_cons {c : Char} {rest : List Char} : needsQuotes (c :: rest) = false ↔
    (c ≠ ',' ∧ c ≠ '"' ∧ c ≠ '\n' ∧ c ≠ '\r') ∧ needsQuotes rest = false := by
  simp [needsQuotes, and_assoc]

/-- A character that is not special belongs to the field. -/
theorem scan_ordinary {p : Place} (hp : p ≠ .quoted) {c : Char}
    (hc : c ≠ ',' ∧ c ≠ '"' ∧ c ≠ '\n' ∧ c ≠ '\r') (field : Content) (fields : List Content)
    (start line : Nat) (rest : Content) :
    scan p field fields start line (some c :: rest) =
      scan .plain (some c :: field) fields start line rest := by
  obtain ⟨hcomma, hquote, hend, hreturn⟩ := hc
  have hline : lineAfter line (some c) = line := by
    rw [lineAfter, if_neg (by simpa using hend)]
  rw [scan, hline]
  all_goals simp_all

/-- Between quotes, everything but a quote belongs to the field. -/
theorem scan_quoted {c : Char} (hc : c ≠ '"') (field : Content) (fields : List Content)
    (start line : Nat) (rest : Content) :
    scan .quoted field fields start line (some c :: rest) =
      scan .quoted (some c :: field) fields start (lineAfter line (some c)) rest := by
  rw [scan]
  simpa using hc

/-! ## Fields -/

theorem scan_plain {f : List Char} (hf : needsQuotes f = false) (field : Content)
    (fields : List Content) (start line : Nat) (rest : Content) :
    scan .plain field fields start line (f.map some ++ rest) =
      scan .plain ((f.map some).reverse ++ field) fields start line rest := by
  induction f generalizing field with
  | nil => rfl
  | cons c f ih =>
    obtain ⟨hc, hf⟩ := needsQuotes_cons.mp hf
    rw [List.map_cons, List.cons_append, scan_ordinary (by decide) hc, ih hf, List.reverse_cons,
      List.append_assoc, List.singleton_append]

/-- Between quotes, doubled quotes stand for themselves, up to the closing quote. -/
theorem scan_doubled (f : List Char) (field : Content) (fields : List Content)
    (start line : Nat) (rest : Content) : ∃ line',
    scan .quoted field fields start line ((doubled f ++ ['"']).map some ++ rest) =
      scan .quoteSeen ((f.map some).reverse ++ field) fields start line' rest := by
  induction f generalizing field line with
  | nil => exact ⟨line, rfl⟩
  | cons c f ih =>
    by_cases hc : c = '"'
    · subst hc
      obtain ⟨line', hrest⟩ := ih (some '"' :: field) line
      refine ⟨line', ?_⟩
      rw [List.map_cons, List.reverse_cons, List.append_assoc, List.singleton_append, ← hrest,
        doubled, if_pos rfl]
      rfl
    · obtain ⟨line', hrest⟩ := ih (some c :: field) (lineAfter line (some c))
      refine ⟨line', ?_⟩
      rw [List.map_cons, List.reverse_cons, List.append_assoc, List.singleton_append, ← hrest,
        doubled, if_neg hc]
      exact scan_quoted hc _ _ _ _ _

/-- Behind a written field the reader holds that field, at a place where it can be closed. It is
still at the start of its row only if the field is empty and the first one. -/
theorem scan_fieldText {p : Place} (hp : p = .rowStart ∨ p = .fieldStart) (f : List Char)
    (fields : List Content) (start line : Nat) (rest : Content) : ∃ p' line',
    scan p [] fields start line ((fieldText f).map some ++ rest) =
        scan p' (f.map some).reverse fields start line' rest ∧
      p' ≠ .quoted ∧ (p' = .rowStart → p = .rowStart ∧ f = []) := by
  rw [fieldText]
  split
  · obtain ⟨line', hrest⟩ := scan_doubled f [] fields start line rest
    refine ⟨.quoteSeen, line', ?_, by decide, fun h => by contradiction⟩
    rw [List.append_nil] at hrest
    rw [← hrest]
    rcases hp with rfl | rfl <;> rfl
  · rename_i hplain
    rw [Bool.not_eq_true] at hplain
    cases f with
    | nil =>
      refine ⟨p, line, rfl, ?_, fun h => ⟨h, rfl⟩⟩
      rcases hp with rfl | rfl <;> decide
    | cons c f =>
      obtain ⟨hc, hf⟩ := needsQuotes_cons.mp hplain
      have hquoted : p ≠ .quoted := by
        rcases hp with rfl | rfl <;> decide
      refine ⟨.plain, line, ?_, by decide, fun h => by contradiction⟩
      rw [List.map_cons, List.cons_append, scan_ordinary hquoted hc, scan_plain hf,
        List.reverse_cons]

/-! ## Rows -/

/-- The written fields of a row are read back, with those before them, when the line ends. -/
theorem scan_fieldsText {p : Place} (hp : p = .rowStart ∨ p = .fieldStart) (f : List Char)
    (fs : List (List Char)) (hrow : p = .rowStart → f :: fs ≠ [[]]) (fields : List Content)
    (start line : Nat) (rest : Content) : ∃ line',
    scan p [] fields start line ((fieldsText (f :: fs)).map some ++ some '\n' :: rest) =
      ⟨start, fields.reverse ++ (f :: fs).map (List.map some)⟩ ::
        scan .rowStart [] [] line' line' rest := by
  induction fs generalizing p f fields line with
  | nil =>
    obtain ⟨p', line', hscan, hquoted, hstart⟩ :=
      scan_fieldText hp f fields start line (some '\n' :: rest)
    refine ⟨line' + 1, ?_⟩
    have hnew : p' ≠ .rowStart := by
      intro h
      obtain ⟨hp', rfl⟩ := hstart h
      exact hrow hp' rfl
    rw [fieldsText, hscan, scan_lineEnd hquoted hnew, List.reverse_reverse, List.reverse_cons]
    rfl
  | cons g fs ih =>
    obtain ⟨p', line', hscan, hquoted, -⟩ := scan_fieldText hp f fields start line
      (some ',' :: ((fieldsText (g :: fs)).map some ++ some '\n' :: rest))
    obtain ⟨line'', hrest⟩ := ih (Or.inr rfl) g (fun h => by contradiction)
      ((f.map some) :: fields) line'
    refine ⟨line'', ?_⟩
    have htext : (fieldsText (f :: g :: fs)).map some ++ some '\n' :: rest =
        (fieldText f).map some ++
          (some ',' :: ((fieldsText (g :: fs)).map some ++ some '\n' :: rest)) := by
      rw [fieldsText, List.map_append, List.map_cons, List.append_assoc, List.cons_append]
      exact fun h => by contradiction
    rw [htext, hscan, scan_comma hquoted, List.reverse_reverse, hrest, List.reverse_cons,
      List.append_assoc, List.singleton_append]
    rfl

/-- A written row is read back. -/
theorem scan_rowText {fields : List String} (h : fields ≠ []) (start line : Nat)
    (rest : Content) : ∃ line',
    scan .rowStart [] [] start line ((rowText fields).map some ++ rest) =
      ⟨start, fields.map Content.ofString⟩ :: scan .rowStart [] [] line' line' rest := by
  rw [rowText]
  split
  · rename_i hempty
    subst hempty
    exact ⟨line + 1, rfl⟩
  · rename_i hempty
    obtain ⟨f, fs, rfl⟩ := List.exists_cons_of_ne_nil h
    have hrow : f.toList :: fs.map String.toList ≠ [[]] := by
      intro heq
      obtain ⟨hf, hfs⟩ := List.cons.inj heq
      rw [List.map_eq_nil_iff] at hfs
      rw [String.toList_eq_nil_iff] at hf
      exact hempty (by rw [hf, hfs])
    obtain ⟨line', hscan⟩ := scan_fieldsText (Or.inl rfl) f.toList (fs.map String.toList)
      (fun _ => hrow) [] start line rest
    refine ⟨line', ?_⟩
    rw [List.map_append, List.append_assoc]
    refine hscan.trans ?_
    rw [List.reverse_nil, List.nil_append, List.map_cons, List.map_cons, List.map_map]
    rfl

/-- Only the mark is passed over. -/
theorem dropMark_of_head {content : Content} (h : content.head? ≠ some (some '\uFEFF')) :
    dropMark content = content := by
  unfold dropMark
  split
  · exact absurd rfl h
  · rfl

theorem fields_scan_rows {rows : List (List String)} (h : ∀ row ∈ rows, row ≠ [])
    (start line : Nat) :
    (scan .rowStart [] [] start line ((rows.flatMap rowText).map some)).map Row.fields =
      rows.map (List.map Content.ofString) := by
  induction rows generalizing start line with
  | nil => rfl
  | cons row rows ih =>
    obtain ⟨line', hscan⟩ := scan_rowText (h row List.mem_cons_self) start line
      ((rows.flatMap rowText).map some)
    rw [List.flatMap_cons, List.map_append, hscan, List.map_cons, List.map_cons,
      ih fun r hr => h r (List.mem_cons_of_mem _ hr)]

/-- Rows are written one after the other. -/
theorem write_append (rows more : List (List String)) :
    write (rows ++ more) = write rows ++ write more := by
  rw [write, List.flatMap_append, String.ofList_append]
  rfl

/-- The rows of a file without their places. -/
def records (content : Content) : List (List Content) := (rows content).map Row.fields

theorem rowText_ne_nil (fields : List String) : rowText fields ≠ [] := by
  rw [rowText]
  split
  · exact List.cons_ne_nil _ _
  · exact List.append_ne_nil_of_right_ne_nil _ (List.cons_ne_nil _ _)

/-- A file of written rows gives the fields of the rows, unless it starts with the mark that is
passed over. -/
theorem records_write {header : List String} {rows : List (List String)}
    (h : ∀ row ∈ header :: rows, row ≠ []) (hmark : (rowText header).head? ≠ some '\uFEFF') :
    records (Content.ofString (write (header :: rows))) =
      (header :: rows).map (List.map Content.ofString) := by
  have hhead : (Content.ofString (write (header :: rows))).head? ≠ some (some '\uFEFF') := by
    obtain ⟨c, cs, hc⟩ := List.exists_cons_of_ne_nil (rowText_ne_nil header)
    rw [hc] at hmark
    rw [Content.ofString, write, String.toList_ofList, List.flatMap_cons, hc]
    simpa using hmark
  rw [records, Csv.rows, dropMark_of_head hhead, Content.ofString, write, String.toList_ofList]
  exact fields_scan_rows h 1 1

end Csv

end NextStop
