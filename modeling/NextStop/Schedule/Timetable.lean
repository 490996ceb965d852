import NextStop.Date
import NextStop.Schedule.Trip
import Std.Data.TreeMap
import Std.Data.TreeSet

/-!
# Timetables

The trips of an operator by their names, and the dates on which each service runs.
-/

namespace NextStop

/-- Trips and service dates. -/
structure Timetable (α : Type) where
  trips : Std.TreeMap TripId (Trip α)
  serviceDates : Std.TreeMap ServiceId (Std.TreeSet Date)

namespace Timetable

variable {α : Type}

/-- The timetable without trips. -/
def empty : Timetable α := ⟨∅, ∅⟩

instance : Inhabited (Timetable α) := ⟨empty⟩

/-- Adds a trip under its own name, in place of an earlier trip of that name. -/
def addTrip (tt : Timetable α) (t : Trip α) : Timetable α :=
  { tt with trips := tt.trips.insert t.id t }

/-- Adds a date on which a service runs. -/
def addServiceDate (tt : Timetable α) (service : ServiceId) (date : Date) : Timetable α :=
  { tt with
    serviceDates := tt.serviceDates.alter service fun dates => some ((dates.getD ∅).insert date) }

/-- The timetable of a list of trips; of trips with equal names the last one stays. -/
def ofTrips (trips : List (Trip α)) : Timetable α := trips.foldl addTrip empty

def trip? (tt : Timetable α) (id : TripId) : Option (Trip α) := tt.trips[id]?

def tripCount (tt : Timetable α) : Nat := tt.trips.size

/-- The scheduled travel time on a stop path. -/
def travel? (tt : Timetable α) (id : TripId) (i : Nat) : Option Int :=
  (tt.trip? id).bind fun t => (t.stopPath? i).map StopPath.travel

/-- The scheduled dwell time at a stop. -/
def dwell? (tt : Timetable α) (id : TripId) (i : Nat) : Option Int :=
  (tt.trip? id).bind fun t => (t.stopPath? i).map StopPath.dwell

/-- Whether a service runs on a date. -/
def runsOn (tt : Timetable α) (service : ServiceId) (date : Date) : Bool :=
  ((tt.serviceDates[service]?).getD ∅).contains date

/-- The trips of a service that run on a date, by their start. -/
def activeTrips (tt : Timetable α) (service : ServiceId) (date : Date) : List (Trip α) :=
  if tt.runsOn service date then
    (tt.trips.values.filter (·.service == service)).mergeSort (·.start ≤ ·.start)
  else []

end Timetable

end NextStop
