import NextStop.Scalar

/-!
# The alarm for a full queue

The alarm goes off when the fill level exceeds its limit, and then stays until the level has
come down to the limit less the gap, so that a level that hovers around the limit does not make
it flicker.
-/

namespace NextStop

/-- An alarm with hysteresis. -/
structure FillAlarm (α : Type) where
  /-- The level above which the alarm goes off. -/
  limit : α
  /-- How far below the limit the alarm ends. -/
  gap : α
  /-- Whether the alarm is on. -/
  active : Bool
  deriving DecidableEq

namespace FillAlarm

variable {α : Type} [Scalar α]

/-- An alarm that is off; a negative gap counts as none. -/
def quiet (limit gap : α) : FillAlarm α := ⟨limit, Scalar.positivePart gap, false⟩

/-- The level above which the alarm is on after the next check. -/
def threshold (a : FillAlarm α) : α := if a.active then a.limit - a.gap else a.limit

/-- The alarm after a check of the level. -/
def check (a : FillAlarm α) (level : α) : FillAlarm α :=
  { a with active := decide (a.threshold < level) }

end FillAlarm

end NextStop
