import NextStop.Scalar
import NextStop.Text.Decimal

/-!
# Running means

The mean of a growing number of samples, kept without the samples: each new one moves the mean
by its share of the difference.
-/

namespace NextStop

/-- A mean and the number of samples behind it. -/
structure RunningMean (α : Type) where
  count : Nat
  mean : α
  deriving DecidableEq

namespace RunningMean

variable {α : Type} [Scalar α]

/-- The mean of no samples. -/
def empty : RunningMean α := ⟨0, 0⟩

/-- The mean after one more sample. -/
def add (m : RunningMean α) (x : α) : RunningMean α :=
  ⟨m.count + 1, m.mean + (x - m.mean) / Scalar.ofNat (m.count + 1)⟩

/-- The mean, if there is a sample. -/
def mean? (m : RunningMean α) : Option α := if m.count = 0 then none else some m.mean

/-- The mean, if at least `least` samples are behind it. -/
def trusted? (m : RunningMean α) (least : Nat) : Option α :=
  if m.count < least then none else m.mean?

/-- The mean in words, rounded to a whole number. -/
def describe (m : RunningMean Float) : String :=
  "HistoricalAverage[count=" ++ toString m.count ++ ", average=" ++ Decimal.whole m.mean ++ "]"

end RunningMean

end NextStop
