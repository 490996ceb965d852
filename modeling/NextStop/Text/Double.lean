/-!
# The parts of a double

A finite double is a whole number times a power of two. `Double.parts` takes it apart, and
`Double.nearest` gives the double nearest to a quotient of whole numbers, a tie going to the one
with the even significand.
-/

namespace NextStop

namespace Double

/-- What a double stands for. -/
inductive Parts where
  /-- The number `significand * 2 ^ exponent`, negated if so marked. -/
  | finite (negative : Bool) (significand : Nat) (exponent : Int)
  | infinite (negative : Bool)
  | undefined
  deriving DecidableEq

/-- The least exponent of a double. -/
def minExponent : Int := -1074

/-- The significands of normal doubles start here, at `2 ^ 52`. -/
def hidden : Nat := 0x10000000000000

/-- The number of exponents in the bits of a double, `2 ^ 11`. -/
def exponents : Nat := 2048

/-- What a double stands for, read off its bits. -/
def parts (x : Float) : Parts :=
  let bits := x.toBits.toNat
  let negative := exponents * hidden ≤ bits
  let exponent : Nat := bits / hidden % exponents
  let fraction : Nat := bits % hidden
  if exponent + 1 = exponents then
    if fraction = 0 then .infinite negative else .undefined
  else if exponent = 0 then .finite negative fraction minExponent
  else .finite negative (hidden + fraction) ((exponent : Int) + minExponent - 1)

/-- The quotient `num / den` rounded to a whole number, a half going to the even neighbour. -/
def roundQuotient (num den : Nat) : Nat :=
  let q := num / den
  let r := num % den
  if den < 2 * r ∨ (2 * r = den ∧ q % 2 = 1) then q + 1 else q

/-- A number times a power, whose exponent counts as zero if it is negative. Thus
`n * base ^ e` is `timesPower n base e` over `timesPower 1 base (-e)`. -/
def timesPower (n base : Nat) (e : Int) : Nat := n * Nat.pow base e.toNat

/-- The quotient `num / den` in units of `2 ^ exponent`, as a quotient of whole numbers. -/
def inUnits (num den : Nat) (exponent : Int) : Nat × Nat :=
  (timesPower num 2 (-exponent), timesPower den 2 exponent)

/-- The quotient `num / den` in units of `2 ^ exponent`, rounded. -/
def significandAt (num den : Nat) (exponent : Int) : Nat :=
  let (num, den) := inUnits num den exponent
  roundQuotient num den

/-- The double with a significand below `2 ^ 53` and an exponent. -/
def ofParts (negative : Bool) (significand : Nat) (exponent : Int) : Float :=
  let sign := if negative then exponents * hidden else 0
  let magnitude :=
    if significand < hidden then significand
    else
      let biased := (exponent - minExponent + 1).toNat
      if exponents ≤ biased + 1 then (exponents - 1) * hidden
      else biased * hidden + (significand - hidden)
  Float.ofBits (UInt64.ofNat (sign + magnitude))

/-- The double nearest to `num / den`, with a sign. The exponent is the one at which the
significand has 53 bits, or the least one. -/
def nearest (negative : Bool) (num den : Nat) : Float :=
  if num = 0 ∨ den = 0 then ofParts negative 0 minExponent
  else
    let guess : Int := (num.log2 : Int) - den.log2 - 52
    -- the quotient lies between `2 ^ (guess + 51)` and `2 ^ (guess + 53)`
    let (n, d) := inUnits num den guess
    let exponent := max (if n / d < hidden then guess - 1 else guess) minExponent
    let significand := significandAt num den exponent
    if significand = 2 * hidden then ofParts negative hidden (exponent + 1)
    else ofParts negative significand exponent

end Double

end NextStop
