import NextStop.Date
import NextStop.Schedule.Trip

/-!
# Events

What the program observes of vehicles: arrivals and departures at stops, gaps to the vehicle
ahead, positions between stops, and changes of a vehicle's status.
-/

namespace NextStop

/-- The two things that happen at a stop. -/
inductive StopEventKind where
  | arrival
  | departure
  deriving DecidableEq

namespace StopEventKind

def isArrival : StopEventKind → Bool
  | arrival => true
  | departure => false

def isDeparture : StopEventKind → Bool
  | arrival => false
  | departure => true

/-- Whether the flag of an arrival is set. -/
def ofIsArrival (b : Bool) : StopEventKind := if b then arrival else departure

end StopEventKind

/-- A vehicle arriving at a stop or departing from it. -/
structure StopEvent where
  vehicle : VehicleId
  trip : TripId
  route : RouteId
  direction : Option String
  block : BlockId
  stop : StopId
  index : Nat
  time : Int
  kind : StopEventKind
  serviceDate : Date
  /-- The start of the trip in seconds after midnight. -/
  tripStart : Nat
  frequencyBased : Bool
  /-- The scheduled time of the event, for service with a timetable. -/
  scheduled : Option Int
  deriving DecidableEq

namespace StopEvent

/-- Whether the event is a departure from a stop of its trip. -/
def isDepartureAt (e : StopEvent) (index : Nat) : Bool := e.kind.isDeparture && e.index == index

/-- Whether the event is an arrival at a stop of its trip. -/
def isArrivalAt (e : StopEvent) (index : Nat) : Bool := e.kind.isArrival && e.index == index

end StopEvent

/-- The gap to the vehicle ahead at a stop. -/
structure Headway where
  vehicle : VehicleId
  /-- The vehicle ahead. -/
  ahead : VehicleId
  route : RouteId
  trip : TripId
  stop : StopId
  gap : Int
  time : Int
  deriving DecidableEq

/-- The position of a vehicle between two stops. -/
structure PathPosition (α : Type) where
  vehicle : VehicleId
  time : Int
  trip : TripId
  block : BlockId
  index : Nat
  along : α
  deriving DecidableEq

/-- Why the status of a vehicle changed. -/
inductive StatusKind where
  | predictable
  | timeout
  | noMatch
  | unassigned
  deriving DecidableEq

/-- The name of a change of status in records. -/
def StatusKind.label : StatusKind → String
  | predictable => "Predictable"
  | timeout => "Timeout"
  | noMatch => "NoMatch"
  | unassigned => "Unassigned"

/-- A change of a vehicle's status. -/
structure StatusEvent where
  vehicle : VehicleId
  time : Int
  kind : StatusKind
  description : String
  deriving DecidableEq

end NextStop
