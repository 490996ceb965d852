import NextStop.Text.Double

/-!
# Reading numbers

Whole numbers are read within a range; they are digits with an optional sign, and in files they
may also be hexadecimal. Doubles are decimals with an optional sign, point and exponent, or one
of the names of infinity and of the undefined value, and give the nearest double.
-/

namespace NextStop

namespace Number

/-! ## Whole numbers -/

/-- The value of a digit, letters standing for ten and more. -/
def digit? (c : Char) : Option Nat :=
  if '0' ≤ c ∧ c ≤ '9' then some (c.toNat - '0'.toNat)
  else if 'a' ≤ c ∧ c ≤ 'z' then some (c.toNat - 'a'.toNat + 10)
  else if 'A' ≤ c ∧ c ≤ 'Z' then some (c.toNat - 'A'.toNat + 10)
  else none

/-- The value of a sequence of digits to a base, after digits of a given value. -/
def digits? (base : Nat) : Nat → List Char → Option Nat
  | n, [] => some n
  | n, c :: rest =>
    (digit? c).bind fun d => if d < base then digits? base (n * base + d) rest else none

/-- The value of at least one digit. -/
def natural? (base : Nat) : List Char → Option Nat
  | [] => none
  | cs => digits? base 0 cs

/-- A sequence of digits without the zeros in front. -/
def significant (cs : List Char) : List Char := cs.dropWhile (· == '0')

/-- The most digits that a number within a range may have, zeros in front aside. -/
def mostDigits : Nat := 40

/-- As `natural?`, but nothing for a number with more digits than any range has room for. -/
def short? (base : Nat) (cs : List Char) : Option Nat :=
  if (significant cs).length ≤ mostDigits then natural? base cs else none

/-- A range of whole numbers. -/
structure Range where
  low : Int
  high : Int

namespace Range

/-- The unsigned numbers of 32 bits. -/
def word32 : Range := ⟨0, 4294967295⟩

/-- The unsigned numbers of 64 bits. -/
def word64 : Range := ⟨0, 18446744073709551615⟩

/-- The signed numbers of 32 bits. -/
def signed32 : Range := ⟨-2147483648, 2147483647⟩

/-- The signed numbers of 64 bits. -/
def signed64 : Range := ⟨-9223372036854775808, 9223372036854775807⟩

/-- A number, if it is in the range. -/
def checked? (r : Range) (n : Int) : Option Int := if r.low ≤ n ∧ n ≤ r.high then some n else none

/-- A whole number of the range to a base. A minus sign may stand only where the range has
negative numbers. -/
def read? (r : Range) (base : Nat) : List Char → Option Int
  | '+' :: cs => (short? base cs).bind fun n => r.checked? n
  | '-' :: cs =>
    if r.low < 0 then (short? base cs).bind fun n => r.checked? (-(n : Int)) else none
  | cs => (short? base cs).bind fun n => r.checked? n

/-- A whole number of the range, hexadecimal after `0x`. -/
def readField? (r : Range) : List Char → Option Int
  | '0' :: 'x' :: cs => r.read? 16 cs
  | cs => r.read? 10 cs

end Range

/-! ## Doubles -/

/-- The digits in front of a text, and what follows them. -/
def spanDigits (cs : List Char) : List Char × List Char := cs.span Char.isDigit

/-- The size of an exponent from which on no more digits count. -/
def largeExponent : Nat := 65536

/-- The size of an exponent after digits of a given size. -/
def exponentDigits? : Nat → List Char → Option Nat
  | n, [] => some n
  | n, c :: cs =>
    (digit? c).bind fun d =>
      if d < 10 then exponentDigits? (if n < largeExponent then n * 10 + d else n) cs else none

/-- The size of an exponent of at least one digit. -/
def exponentSize? : List Char → Option Nat
  | [] => none
  | cs => exponentDigits? 0 cs

/-- A decimal exponent: a mark, an optional sign and at least one digit, and nothing more. -/
def exponent? : List Char → Option Int
  | [] => some 0
  | c :: cs =>
    if c = 'e' ∨ c = 'E' then
      match cs with
      | '+' :: cs => (exponentSize? cs).map fun n => (n : Int)
      | '-' :: cs => (exponentSize? cs).map fun n => -(n : Int)
      | cs => (exponentSize? cs).map fun n => (n : Int)
    else none

/-- The most digits of a coefficient that are kept. A point halfway between two doubles has fewer
than 770, so that of later digits it only matters whether one is not zero. -/
def mostKept : Nat := 800

/-- Digits of a coefficient and its exponent, without the zeros in front. Of digits beyond
`mostKept` a single one is left, which is zero if they all are. -/
def shortened (digits : List Char) (exponent : Int) : List Char × Int :=
  let digits := significant digits
  let cut := digits.drop mostKept
  if cut.isEmpty then (digits, exponent)
  else
    (digits.take mostKept ++ [if (significant cut).isEmpty then '0' else '1'],
      exponent + cut.length - 1)

/-- The double nearest to `coefficient * 10 ^ exponent`. Numbers that are far out of the range
of doubles are not written out. -/
def scaled (negative : Bool) (coefficient : Nat) (exponent : Int) : Float :=
  let digits : Int := (Nat.toDigits 10 coefficient).length
  if coefficient = 0 ∨ exponent + digits < -400 then Double.nearest negative 0 1
  else if 400 < exponent + digits then Double.nearest negative (Double.timesPower 1 10 400) 1
  else
    Double.nearest negative (Double.timesPower coefficient 10 exponent)
      (Double.timesPower 1 10 (-exponent))

/-- An unsigned decimal: digits, a point and digits, one of the two possibly empty, and an
exponent. -/
def decimal? (negative : Bool) (cs : List Char) : Option Float :=
  let (whole, rest) := spanDigits cs
  let (fraction, rest) := match rest with
    | '.' :: rest => spanDigits rest
    | rest => ([], rest)
  if whole.isEmpty ∧ fraction.isEmpty then none
  else
    (exponent? rest).bind fun e =>
      let (digits, e) := shortened (whole ++ fraction) (e - fraction.length)
      (digits? 10 0 digits).map fun coefficient => scaled negative coefficient e

/-- An unsigned double: a name, in letters of either case, or a decimal. -/
def unsigned? (negative : Bool) (cs : List Char) : Option Float :=
  let name := String.ofList (cs.map Char.toLower)
  let sign (x : Float) : Float := if negative then -x else x
  if name = "nan" then some (sign (0 / 0))
  else if name = "inf" ∨ name = "infinity" then some (sign (1 / 0))
  else decimal? negative cs

/-- A double. -/
def double? : List Char → Option Float
  | '+' :: cs => unsigned? false cs
  | '-' :: cs => unsigned? true cs
  | cs => unsigned? false cs

end Number

end NextStop
