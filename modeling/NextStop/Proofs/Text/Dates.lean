import NextStop.Proofs.Text.Numeral
import NextStop.Text.DateText

/-!
# Dates read back

A date that is written is read back as itself, if its year is one that dates are read with. A year
of four digits has no sign and is cut off after the fourth; all other years have one, after which
the digits are read up to the dash.
-/

namespace NextStop

namespace Date

open Number

/-! ## Numbers with zeros in front -/

theorem toList_padded (width n : Nat) : (padded width n).toList =
    List.replicate (width - (Nat.toDigits 10 n).length) '0' ++ Nat.toDigits 10 n := by
  have hzeros : ∀ k : Nat, ("".pushn '0' k).toList = List.replicate k '0' := by
    intro k
    rw [String.pushn_eq_repeat_push]
    induction k with
    | zero => rfl
    | succ k ih =>
      rw [Nat.repeat, String.toList_push, ih, List.replicate_succ']
  rw [padded, String.toList_append, hzeros, Nat.toString_eq_ofList_toDigits, String.toList_ofList,
    String.length_ofList]

theorem padded_ne_nil (width n : Nat) : (padded width n).toList ≠ [] := by
  rw [toList_padded]
  exact List.append_ne_nil_of_right_ne_nil _ Nat.toDigits_ne_nil

theorem isDigit_of_mem_padded {width n : Nat} :
    ∀ c ∈ (padded width n).toList, c.isDigit = true := by
  intro c hc
  rw [toList_padded, List.mem_append] at hc
  rcases hc with hzero | hdigit
  · rw [List.eq_of_mem_replicate hzero]
    rfl
  · exact isDigit_of_mem_toDigits c hdigit

theorem length_padded {width n : Nat} (h : (Nat.toDigits 10 n).length ≤ width) :
    (padded width n).toList.length = width := by
  rw [toList_padded, List.length_append, List.length_replicate]
  omega

theorem natural?_padded (width n : Nat) : natural? 10 (padded width n).toList = some n := by
  rw [natural?_of_isDigit (padded_ne_nil width n) isDigit_of_mem_padded, toList_padded,
    Nat.ofDigitChars_append, Nat.ofDigitChars_replicate_zero, Nat.mul_zero,
    Nat.ofDigitChars_ten_toDigits]

/-! ## Reading numbers off the front of a text -/

/-- A text that does not go on with a digit. -/
def NoDigitAhead (cs : List Char) : Prop := ∀ c ∈ cs.head?, c.isDigit = false

theorem NoDigitAhead.takeWhile_take {cs : List Char} (h : NoDigitAhead cs) (k : Nat) :
    (cs.take k).takeWhile Char.isDigit = [] := by
  cases cs with
  | nil => rw [List.take_nil, List.takeWhile_nil]
  | cons c cs =>
    have hc : c.isDigit = false := h c rfl
    cases k with
    | zero => rfl
    | succ k => rw [List.take_succ_cons, List.takeWhile_cons_of_neg (by simp [hc])]

theorem noDigitAhead_dash (cs : List Char) : NoDigitAhead ('-' :: cs) := by
  intro c hc
  obtain rfl := Option.some.inj hc
  rfl

theorem noDigitAhead_nil : NoDigitAhead [] := by
  intro c hc
  contradiction

theorem dropBlanks_cons_of_not {c : Char} (h : isBlank c = false) (cs : List Char) :
    dropBlanks (c :: cs) = c :: cs := by
  rw [dropBlanks, List.dropWhile_cons_of_neg (by simp [h])]

theorem isBlank_of_isDigit {c : Char} (h : c.isDigit = true) : isBlank c = false := by
  obtain ⟨hlow, hhigh⟩ := isDigit_iff.mp h
  have hlow : 48 ≤ c.toNat := hlow
  have hhigh : c.toNat ≤ 57 := hhigh
  simp only [isBlank, Bool.or_eq_false_iff, Bool.and_eq_false_iff, decide_eq_false_iff_not,
    beq_eq_false_iff_ne]
  omega

/-- A padded number starts with a digit, so that no blanks are dropped in front of it. -/
theorem dropBlanks_padded_append (width n : Nat) (rest : List Char) :
    dropBlanks ((padded width n).toList ++ rest) = (padded width n).toList ++ rest := by
  obtain ⟨c, cs, hcs⟩ := List.exists_cons_of_ne_nil (padded_ne_nil width n)
  have hc : c.isDigit = true := isDigit_of_mem_padded c (hcs ▸ List.mem_cons_self)
  rw [hcs, List.cons_append, dropBlanks_cons_of_not (isBlank_of_isDigit hc)]

/-- Digits are read up to what is no digit, if there are not too many of them. -/
theorem number?_padded_append {max width n : Nat} {rest : List Char}
    (hmax : (padded width n).toList.length ≤ max) (hrest : NoDigitAhead rest) :
    number? max ((padded width n).toList ++ rest) = some (n, rest) := by
  have hdigits : (((padded width n).toList ++ rest).take max).takeWhile Char.isDigit =
      (padded width n).toList := by
    rw [List.take_append, List.take_of_length_le hmax,
      List.takeWhile_append_of_pos isDigit_of_mem_padded]
    rw [hrest.takeWhile_take, List.append_nil]
  rw [number?, hdigits, natural?_padded, List.drop_left]
  rfl

theorem readPart?_dash {n : Nat} {rest : List Char} (hn : n < 100) (hrest : NoDigitAhead rest) :
    readPart? ('-' :: ((padded 2 n).toList ++ rest)) = some (n, rest) := by
  have hdigits : (Nat.toDigits 10 n).length ≤ 2 :=
    (Nat.length_toDigits_le_iff (by decide) (by decide)).mpr hn
  have hlength : (padded 2 n).toList.length ≤ 2 := Nat.le_of_eq (length_padded hdigits)
  rw [readPart?, dropBlanks_cons_of_not (by decide)]
  exact (congrArg (number? 2) (dropBlanks_padded_append 2 n rest)).trans
    (number?_padded_append hlength hrest)

/-! ## Years -/

theorem readYear?_minus (cs : List Char) : readYear? ('-' :: cs) =
    (number? cs.length cs).map fun (n, rest) => (-(n : Int), rest) := by
  rw [readYear?, dropBlanks_cons_of_not (by decide)]
  rfl

theorem readYear?_plus (cs : List Char) : readYear? ('+' :: cs) =
    (number? cs.length cs).map fun (n, rest) => ((n : Int), rest) := by
  rw [readYear?, dropBlanks_cons_of_not (by decide)]
  rfl

theorem readYear?_of_isDigit {c : Char} (hc : c.isDigit = true) (cs : List Char) :
    readYear? (c :: cs) = (number? 4 (c :: cs)).map fun (n, rest) => ((n : Int), rest) := by
  rw [readYear?, dropBlanks_cons_of_not (isBlank_of_isDigit hc)]
  split
  · rename_i hsign
    obtain ⟨rfl, -⟩ := List.cons.inj hsign
    contradiction
  · rename_i hsign
    obtain ⟨rfl, -⟩ := List.cons.inj hsign
    contradiction
  · rfl

theorem number?_padded_all (n : Nat) {rest : List Char} (hrest : NoDigitAhead rest) :
    number? ((padded 4 n).toList ++ rest).length ((padded 4 n).toList ++ rest) =
      some (n, rest) := by
  refine number?_padded_append ?_ hrest
  rw [List.length_append]
  exact Nat.le_add_right _ _

theorem readYear?_writeYear {year : Int} {rest : List Char} (hrest : NoDigitAhead rest) :
    readYear? ((writeYear year).toList ++ rest) = some (year, rest) := by
  rw [writeYear]
  split
  · rename_i hfour
    obtain ⟨c, cs, hcs⟩ := List.exists_cons_of_ne_nil (padded_ne_nil 4 year.toNat)
    have hc : c.isDigit = true := isDigit_of_mem_padded c (hcs ▸ List.mem_cons_self)
    have hdigits : (Nat.toDigits 10 year.toNat).length ≤ 4 :=
      (Nat.length_toDigits_le_iff (by decide) (by decide)).mpr (by omega)
    have hlength : (padded 4 year.toNat).toList.length ≤ 4 := Nat.le_of_eq (length_padded hdigits)
    have hread := number?_padded_append hlength hrest
    have hyear : (year.toNat : Int) = year := by omega
    rw [hcs, List.cons_append] at hread ⊢
    rw [readYear?_of_isDigit hc, hread]
    exact congrArg (fun y => some (y, rest)) hyear
  · split
    · have hyear : -(year.natAbs : Int) = year := by omega
      have hsign : ("-" ++ padded 4 year.natAbs).toList = '-' :: (padded 4 year.natAbs).toList :=
        String.toList_append
      rw [hsign, List.cons_append, readYear?_minus, number?_padded_all _ hrest]
      exact congrArg (fun y => some (y, rest)) hyear
    · have hyear : (year.natAbs : Int) = year := by omega
      have hsign : ("+" ++ padded 4 year.natAbs).toList = '+' :: (padded 4 year.natAbs).toList :=
        String.toList_append
      rw [hsign, List.cons_append, readYear?_plus, number?_padded_all _ hrest]
      exact congrArg (fun y => some (y, rest)) hyear

/-! ## Dates -/

theorem day_lt (d : Date) : d.day < 100 := by
  have hday := d.valid.2.2.2
  have hmonth : Calendar.daysInMonth d.year d.month ≤ 31 := by
    unfold Calendar.daysInMonth
    split
    · split <;> decide
    · split <;> decide
  omega

theorem toList_write (d : Date) : d.write.toList = (writeYear d.year).toList ++
    '-' :: ((padded 2 d.month).toList ++ '-' :: ((padded 2 d.day).toList ++ [])) := by
  have hdash : "-".toList = ['-'] := rfl
  rw [write, String.toList_append, String.toList_append, String.toList_append,
    String.toList_append, hdash, List.append_nil]
  simp only [List.append_assoc, List.cons_append, List.nil_append]

/-- A date of the years that can be read is read back. -/
theorem read?_write (d : Date) (h : years.low ≤ d.year ∧ d.year ≤ years.high) :
    read? d.write.toList = some d := by
  have hmonth : d.month < 100 := Nat.lt_of_le_of_lt d.valid.2.1 (by decide)
  have hyear := @readYear?_writeYear d.year _
    (noDigitAhead_dash ((padded 2 d.month).toList ++ '-' :: ((padded 2 d.day).toList ++ [])))
  have hmonths := readPart?_dash hmonth (noDigitAhead_dash ((padded 2 d.day).toList ++ []))
  have hdays := readPart?_dash d.day_lt noDigitAhead_nil
  rw [read?, toList_write, hyear, Option.bind_some]
  dsimp only
  rw [hmonths, Option.bind_some]
  dsimp only
  rw [hdays, Option.bind_some]
  dsimp only
  rw [dropBlanks, List.dropWhile_nil, List.isEmpty_nil, if_pos rfl, Range.checked?_of_mem h,
    Option.bind_some, ofParts?, dif_pos d.valid]

end Date

end NextStop
