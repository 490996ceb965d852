import NextStop.Settings

/-!
# Plausible durations

Travel and dwell times outside the configured bounds do not enter any statistic.
-/

namespace NextStop

namespace Settings

variable {α : Type}

/-- Whether a travel time lies within its bounds. -/
def travelPlausible (s : Settings α) (travel : Int) : Bool :=
  Span.ofSeconds s.minTravel ≤ travel && travel ≤ Span.ofSeconds s.maxTravel

/-- Whether a dwell time is not negative and within its bound. -/
def dwellPlausible (s : Settings α) (dwell : Int) : Bool :=
  0 ≤ dwell && dwell ≤ Span.ofSeconds s.maxDwell

end Settings

end NextStop
