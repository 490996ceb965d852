import NextStop.Scalar
import NextStop.Time

/-!
# Trips

A trip is a sequence of stop paths. Stop path `k` is the way that leads to stop `k` together
with the stop at its end, so that stops and stop paths share their numbers. A segment names one
stop path of a trip; it is the unit for which statistics are kept.
-/

namespace NextStop

abbrev VehicleId := String
abbrev TripId := String
abbrev RouteId := String
abbrev StopId := String
abbrev BlockId := String
abbrev ServiceId := String

/-- A stop and the way to it from the stop before. -/
structure StopPath (α : Type) where
  stop : StopId
  /-- The scheduled time on the way, in milliseconds. -/
  travel : Int
  /-- The scheduled time at the stop, in milliseconds. -/
  dwell : Int
  /-- The scheduled arrival, at wait stops the scheduled departure, in seconds after midnight. -/
  scheduled : Nat
  /-- Vehicles hold here until their scheduled departure. -/
  waitStop : Bool
  /-- How close to the stop a vehicle counts as being at it, in metres. -/
  radius : Option α
  deriving DecidableEq

/-- A scheduled run along a sequence of stops. -/
structure Trip (α : Type) where
  id : TripId
  route : RouteId
  direction : Option String
  block : BlockId
  service : ServiceId
  /-- Service at intervals, without a timetable. -/
  frequencyBased : Bool
  /-- The start of the trip in seconds after midnight. -/
  start : Nat
  stopPaths : List (StopPath α)
  deriving DecidableEq

namespace Trip

variable {α : Type}

def stopPath? (t : Trip α) (i : Nat) : Option (StopPath α) := t.stopPaths[i]?

/-- Whether no stop path comes after number `i`. -/
def isLast (t : Trip α) (i : Nat) : Bool := t.stopPaths.length ≤ i + 1

/-- The scheduled time at a stop on the service day that starts at `day`. -/
def scheduledTime? (t : Trip α) (i : Nat) (day : Int) : Option Int :=
  (t.stopPath? i).map fun p => Time.wrap (day + (p.scheduled : Int) * 1000)

theorem stopPath?_eq_none_iff (t : Trip α) (i : Nat) :
    t.stopPath? i = none ↔ t.stopPaths.length ≤ i := by
  simp [stopPath?]

end Trip

/-- One stop path of a trip. -/
structure Segment (α : Type) where
  trip : Trip α
  index : Nat

namespace Segment

variable {α : Type}

def stopPath? (s : Segment α) : Option (StopPath α) := s.trip.stopPath? s.index

/-- The stop at the end of the segment, empty if the trip has no such stop path. -/
def stop (s : Segment α) : StopId := (s.stopPath?.map StopPath.stop).getD ""

def isLast (s : Segment α) : Bool := s.trip.isLast s.index

/-- The segment that follows on the same trip. -/
def next? (s : Segment α) : Option (Segment α) :=
  if s.isLast then none else some ⟨s.trip, s.index + 1⟩

/-- Segments are the same when they have the same number on trips of the same name. -/
def same (s t : Segment α) : Bool := s.trip.id == t.trip.id && s.index == t.index

/-- The segment in words. -/
def describe (s : Segment α) : String :=
  "Indices[trip=" ++ s.trip.id ++ ", stopPath=" ++ toString s.index ++ "]"

end Segment

end NextStop
