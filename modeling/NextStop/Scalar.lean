/-!
# Scalars

Distances, running means, filter errors and fill levels are computed over a scalar type. The
rules are written once for every such type. `Float` is the type that the program runs on: each
rule is evaluated in the order in which it is written, one rounding per operation. `Rat` reads
the same rules in exact arithmetic, which is where their algebra can be stated.
-/

namespace NextStop

/-- The operations that the numeric rules of the library are written in. -/
class Scalar (α : Type) extends
    Add α, Sub α, Mul α, Div α, Zero α, One α, IntCast α, LT α, LE α where
  decidableLT : DecidableLT α
  decidableLE : DecidableLE α
  /-- The nearest whole number; a half goes away from zero. -/
  round : α → Int
  /-- Whether the value is a number at all, neither infinite nor undefined. -/
  isFinite : α → Bool

attribute [reducible, instance] Scalar.decidableLT Scalar.decidableLE

/-! ## The two scalar types -/

/-- Doubles. An integer becomes the nearest double, and rounding back stops at the ends of the
64-bit range, with zero for an undefined value. -/
instance : Scalar Float where
  zero := 0
  one := 1
  intCast n := if n < 0 then -n.natAbs.toUInt64.toFloat else n.natAbs.toUInt64.toFloat
  decidableLT := inferInstance
  decidableLE := inferInstance
  round x := x.round.toInt64.toInt
  isFinite x := x.isFinite

/-- Exact numbers. -/
instance : Scalar Rat where
  zero := 0
  one := 1
  decidableLT := inferInstance
  decidableLE := inferInstance
  round q := if q < 0 then -((-q + 1 / 2).floor) else (q + 1 / 2).floor
  isFinite _ := true

namespace Scalar

variable {α : Type} [Scalar α]

/-- A whole number as a scalar. -/
def ofNat (n : Nat) : α := ((n : Int) : α)

/-- The quotient of two whole numbers. -/
def ratio (num den : Nat) : α := ofNat num / ofNat den

/-- The value moved into the interval from `lo` to `hi`; an undefined value stays as it is. -/
def clamp (lo hi x : α) : α := if x < lo then lo else if hi < x then hi else x

/-- The value, or zero when it is not positive. -/
def positivePart (x : α) : α := if 0 < x then x else 0

/-- The spacing of doubles at one, below which a difference counts as none. -/
def epsilon : α := ratio 1 4503599627370496

end Scalar

end NextStop
