import NextStop.Text.Double

/-!
# Doubles as decimals

`Decimal.shortest` is the decimal with the fewest digits that reads back as a given double, of
several the one nearest to it. It is found by trying decimal grids from coarse to fine: on the
first grid that has a point in the interval of numbers that read back, one of the two grid
points next to the double is such a point.

`Decimal.layout` writes such a decimal out, and `Decimal.whole` writes a double as a whole
number.
-/

namespace NextStop

namespace Decimal

open Double (timesPower)

/-- Whether `a * 2 ^ e` is at most `d * 10 ^ k`. -/
def le (a : Nat) (e : Int) (d : Nat) (k : Int) : Bool :=
  timesPower (timesPower a 2 e) 10 (-k) ≤ timesPower (timesPower d 10 k) 2 (-e)

/-- Whether `d * 10 ^ k` is at most `a * 2 ^ e`. -/
def ge (a : Nat) (e : Int) (d : Nat) (k : Int) : Bool :=
  timesPower (timesPower d 10 k) 2 (-e) ≤ timesPower (timesPower a 2 e) 10 (-k)

/-- Numbers that read back as a double: those between two ends, which belong to it if the
significand is even. All three numbers are in units of `2 ^ exponent`. -/
structure Interval where
  low : Nat
  value : Nat
  high : Nat
  exponent : Int
  closed : Bool

/-- The numbers that read back as `significand * 2 ^ exponent`. They reach half way to the
neighbours; below a power of two the neighbour is nearer. -/
def Interval.ofParts (significand : Nat) (exponent : Int) : Interval where
  low :=
    if significand = Double.hidden ∧ Double.minExponent < exponent then 4 * significand - 1
    else 4 * significand - 2
  value := 4 * significand
  high := 4 * significand + 2
  exponent := exponent - 2
  closed := significand % 2 = 0

/-- Whether `d * 10 ^ k` is in the interval. -/
def Interval.contains (i : Interval) (d : Nat) (k : Int) : Bool :=
  if i.closed then le i.low i.exponent d k && ge i.high i.exponent d k
  else !ge i.low i.exponent d k && !le i.high i.exponent d k

/-- The last grid point not above the value, on the grid of multiples of `10 ^ k`. -/
def Interval.floor (i : Interval) (k : Int) : Nat :=
  timesPower (timesPower i.value 2 i.exponent) 10 (-k) /
    timesPower (timesPower 1 10 k) 2 (-i.exponent)

/-- Whether the grid point above the value is nearer than the one below, the one below being
`d`; of two equally near ones the even one is taken. -/
def Interval.upper (i : Interval) (d : Nat) (k : Int) : Bool :=
  -- the midpoint is `(2 * d + 1) * 10 ^ k / 2`
  let doubled := 2 * i.value
  if !ge doubled i.exponent (2 * d + 1) k then false
  else if le doubled i.exponent (2 * d + 1) k then d % 2 == 1
  else true

/-- The point of a grid that reads back, the nearer one if both neighbours of the value do. -/
def Interval.onGrid? (i : Interval) (k : Int) : Option Nat :=
  let d := i.floor k
  match d != 0 && i.contains d k, i.contains (d + 1) k with
  | true, true => some (if i.upper d k then d + 1 else d)
  | true, false => some d
  | false, true => some (d + 1)
  | false, false => none

/-- The first of a number of ever finer grids, from `10 ^ k` on, that has a point which reads
back. -/
def Interval.search (i : Interval) : Nat → Int → Nat × Int
  | 0, k => (i.floor k, k)
  | n + 1, k =>
    match i.onGrid? k with
    | some d => (d, k)
    | none => i.search n (k - 1)

/-- The coefficient and exponent of the shortest decimal of `significand * 2 ^ exponent`. The
search starts on a grid coarser than the number, and seventeen digits always suffice. -/
def shortest (significand : Nat) (exponent : Int) : Nat × Int :=
  let magnitude := (significand.log2 : Int) + 1 + exponent
  (Interval.ofParts significand exponent).search 24 (magnitude * 30103 / 100000 + 2)

/-! ## Layout -/

/-- Decimals are written positionally from 1e-5 up to below 1e16, always with a point. All
others are written with one digit before the point, which is left out with nothing behind it,
and a plain exponent. -/
def layout (digits : String) (k : Int) : String :=
  let len : Int := digits.length
  let point := len + k
  if 0 ≤ k ∧ point ≤ 16 then digits ++ "".pushn '0' k.toNat ++ ".0"
  else if 0 < point ∧ point ≤ 16 then
    String.ofList (digits.toList.take point.toNat) ++ "." ++
      String.ofList (digits.toList.drop point.toNat)
  else if -5 < point ∧ point ≤ 0 then "0." ++ "".pushn '0' (-point).toNat ++ digits
  else if len = 1 then digits ++ "e" ++ toString (point - 1)
  else
    String.ofList (digits.toList.take 1) ++ "." ++ String.ofList (digits.toList.drop 1) ++
      "e" ++ toString (point - 1)

/-- A double as the shortest decimal that reads back. -/
def write (x : Float) : String :=
  match Double.parts x with
  | .undefined => "NaN"
  | .infinite negative => if negative then "-inf" else "inf"
  | .finite negative significand exponent =>
    (if negative then "-" else "") ++
      if significand = 0 then "0.0"
      else
        let (d, k) := shortest significand exponent
        layout (toString d) k

/-- A double as the shortest decimal that reads back, less the zero behind the point of a whole
number. -/
def plain (x : Float) : String :=
  match (write x).toList.reverse with
  | '0' :: '.' :: rest => String.ofList rest.reverse
  | _ => write x

/-- A double as a whole number, a half going to the even neighbour. The sign is kept, also that
of zero. -/
def whole (x : Float) : String :=
  match Double.parts x with
  | .undefined => "NaN"
  | .infinite negative => if negative then "-inf" else "inf"
  | .finite negative significand exponent =>
    (if negative then "-" else "") ++
      toString (Double.significandAt (timesPower significand 2 exponent)
        (timesPower 1 2 (-exponent)) 0)

end Decimal

end NextStop
