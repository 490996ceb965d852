import NextStop.Text.Number

/-!
# Numerals read back

A whole number that is written in decimal is read back as itself. Digits are read by the fold that
the standard library has for them, `Number.digits?_of_isDigit`, so that its facts about the digits
of a number apply.
-/

namespace NextStop

namespace Number

/-! ## Digits -/

theorem isDigit_iff {c : Char} : c.isDigit = true ↔ '0' ≤ c ∧ c ≤ '9' := by
  rw [Char.isDigit, Bool.and_eq_true, decide_eq_true_eq, decide_eq_true_eq]
  rfl

theorem digit?_of_isDigit {c : Char} (h : c.isDigit = true) :
    digit? c = some (c.toNat - '0'.toNat) := by
  rw [digit?, if_pos (isDigit_iff.mp h)]

theorem digits?_of_isDigit {cs : List Char} (h : ∀ c ∈ cs, c.isDigit = true) (n : Nat) :
    digits? 10 n cs = some (Nat.ofDigitChars 10 cs n) := by
  induction cs generalizing n with
  | nil => rfl
  | cons c cs ih =>
    have hc := h c List.mem_cons_self
    have hlt : c.toNat - '0'.toNat < 10 := by
      have hle : c.toNat ≤ '9'.toNat := (isDigit_iff.mp hc).2
      exact Nat.lt_succ_of_le (Nat.sub_le_sub_right hle '0'.toNat)
    rw [digits?, digit?_of_isDigit hc, Option.bind_some, if_pos hlt,
      ih fun d hd => h d (List.mem_cons_of_mem _ hd), Nat.ofDigitChars_cons, Nat.mul_comm]

theorem isDigit_of_mem_toDigits {n : Nat} : ∀ c ∈ Nat.toDigits 10 n, c.isDigit = true :=
  fun _ hc => Nat.isDigit_of_mem_toDigits (by decide) (by decide) hc

theorem natural?_of_isDigit {cs : List Char} (some_digit : cs ≠ [])
    (h : ∀ c ∈ cs, c.isDigit = true) : natural? 10 cs = some (Nat.ofDigitChars 10 cs 0) := by
  cases cs with
  | nil => contradiction
  | cons c cs => exact digits?_of_isDigit h 0

theorem natural?_toDigits (n : Nat) : natural? 10 (Nat.toDigits 10 n) = some n := by
  rw [natural?_of_isDigit Nat.toDigits_ne_nil isDigit_of_mem_toDigits,
    Nat.ofDigitChars_ten_toDigits]

/-- No range has numbers of more digits than `short?` reads. -/
theorem short?_toDigits {n : Nat} (h : (Nat.toDigits 10 n).length ≤ mostDigits) :
    short? 10 (Nat.toDigits 10 n) = some n := by
  have hlength : (significant (Nat.toDigits 10 n)).length ≤ mostDigits :=
    Nat.le_trans (List.dropWhile_sublist _).length_le h
  rw [short?, if_pos hlength, natural?_toDigits]

/-! ## Numbers of a range -/

namespace Range

theorem checked?_of_mem {r : Range} {n : Int} (h : r.low ≤ n ∧ n ≤ r.high) :
    r.checked? n = some n := by
  rw [checked?, if_pos h]

/-- A numeral without a sign is read as its digits. -/
theorem readField?_of_isDigit (r : Range) {cs : List Char} (h : ∀ c ∈ cs, c.isDigit = true) :
    r.readField? cs = (short? 10 cs).bind fun n => r.checked? n := by
  unfold readField?
  split
  · have hx := h 'x' (List.mem_cons_of_mem _ List.mem_cons_self)
    contradiction
  · unfold read?
    split
    · have hplus := h '+' List.mem_cons_self
      contradiction
    · have hminus := h '-' List.mem_cons_self
      contradiction
    · rfl

theorem readField?_toString_nat {r : Range} {n : Nat}
    (h : (Nat.toDigits 10 n).length ≤ mostDigits)
    (hr : r.low ≤ n ∧ (n : Int) ≤ r.high) : r.readField? (toString n).toList = some (n : Int) := by
  rw [Nat.toString_eq_ofList_toDigits, String.toList_ofList,
    readField?_of_isDigit r isDigit_of_mem_toDigits, short?_toDigits h, Option.bind_some,
    checked?_of_mem hr]

theorem readField?_toString_int {r : Range} {n : Int}
    (h : (Nat.toDigits 10 n.natAbs).length ≤ mostDigits)
    (hr : r.low ≤ n ∧ n ≤ r.high) : r.readField? (toString n).toList = some n := by
  cases n with
  | ofNat m => exact readField?_toString_nat (n := m) h hr
  | negSucc m =>
    have htext : (toString (Int.negSucc m)).toList = '-' :: Nat.toDigits 10 (m + 1) := by
      rw [Int.toString_eq_repr, Int.repr, String.toList_append, Nat.toList_repr]
      rfl
    have hlow : r.low < 0 := Int.lt_of_le_of_lt hr.1 (Int.negSucc_lt_zero m)
    have hdigits : short? 10 (Nat.toDigits 10 (m + 1)) = some (m + 1) := short?_toDigits h
    have hfield : r.readField? ('-' :: Nat.toDigits 10 (m + 1)) =
        r.read? 10 ('-' :: Nat.toDigits 10 (m + 1)) := rfl
    rw [htext, hfield, read?, if_pos hlow, hdigits, Option.bind_some]
    exact checked?_of_mem hr

end Range

end Number

end NextStop
