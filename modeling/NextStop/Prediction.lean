import NextStop.StopEvent

/-!
# Predictions

A prediction is for one vehicle at one stop. It is built from estimates of travel and dwell
times on single stop paths, each marked with the method that gave it.
-/

namespace NextStop

/-- The methods that give travel and dwell times. -/
inductive Method where
  | timetable
  | lastVehicle
  | historicalAverage
  | kalman
  | rls
  deriving DecidableEq

/-- The name of a method in records. -/
def Method.label : Method → String
  | timetable => "SCHEDULED"
  | lastVehicle => "LAST VEHICLE"
  | historicalAverage => "HISTORICAL AVERAGE"
  | kalman => "KALMAN"
  | rls => "RLS"

/-- The two times that are measured on a stop path: the time on the way and the time at the
stop. -/
inductive Quantity where
  | dwell
  | travel
  deriving DecidableEq

namespace Quantity

def isTravel : Quantity → Bool
  | dwell => false
  | travel => true

/-- Whether the flag of a travel time is set. -/
def ofIsTravel (b : Bool) : Quantity := if b then travel else dwell

theorem isTravel_inj {a b : Quantity} : a.isTravel = b.isTravel ↔ a = b := by
  cases a <;> cases b <;> decide

end Quantity

/-- The predicted arrival at a stop, or at a wait stop the predicted departure. -/
structure Prediction where
  vehicle : VehicleId
  route : RouteId
  trip : TripId
  stop : StopId
  index : Nat
  time : Int
  /-- The time of the report that the prediction comes from. -/
  reportTime : Int
  created : Int
  kind : StopEventKind
  scheduleBased : Bool
  deriving DecidableEq

/-- The estimate of one travel or dwell time. -/
structure PathEstimate where
  vehicle : VehicleId
  created : Int
  value : Int
  trip : TripId
  index : Nat
  method : Method
  quantity : Quantity
  scheduled : Bool
  deriving DecidableEq

end NextStop
