import NextStop.Prediction
import Std.Data.TreeMap

/-!
# The board of current predictions

The predictions in force, by vehicle and by route and stop. A vehicle's predictions are always
replaced as a whole, in both tables at once. Neither table keeps empty lists.
-/

namespace NextStop

/-- A stop as served by a route. -/
structure RouteStop where
  route : RouteId
  stop : StopId
  deriving DecidableEq

namespace RouteStop

instance : Ord RouteStop where
  compare := compareLex (compareOn RouteStop.route) (compareOn RouteStop.stop)

instance : Std.TransOrd RouteStop :=
  inferInstanceAs (Std.TransCmp (compareLex _ _))

instance : Std.LawfulEqOrd RouteStop where
  eq_of_compare {a b} h := by
    replace h : compareLex (compareOn RouteStop.route) (compareOn RouteStop.stop) a b = .eq := h
    simp only [compareLex_eq_eq, compareOn, Std.LawfulEqCmp.compare_eq_iff_eq] at h
    cases a; cases b
    simp_all

/-- The stop that a prediction is for. -/
def ofPrediction (p : Prediction) : RouteStop := ⟨p.route, p.stop⟩

end RouteStop

/-- The predictions in force. -/
structure Board where
  byVehicle : Std.TreeMap VehicleId (List Prediction)
  byStop : Std.TreeMap RouteStop (Std.TreeMap VehicleId (List Prediction))

namespace Board

/-- The board without predictions. -/
def empty : Board := ⟨∅, ∅⟩

instance : Inhabited Board := ⟨empty⟩

/-- The predictions of a vehicle. -/
def forVehicle (b : Board) (v : VehicleId) : List Prediction := (b.byVehicle[v]?).getD []

/-- Takes a vehicle off the list of a stop, and the stop off the board if no vehicle is left. -/
def strike (b : Board) (v : VehicleId) (rs : RouteStop) : Board :=
  { b with
    byStop := b.byStop.alter rs fun vehicles =>
      (vehicles.map (·.erase v)).filter (!·.isEmpty) }

/-- Takes a vehicle off the lists of the stops that its predictions are for. -/
def unlink (b : Board) (v : VehicleId) (old : List Prediction) : Board :=
  old.foldl (fun b p => b.strike v (RouteStop.ofPrediction p)) b

/-- Adds a prediction of a vehicle to the list of its stop. -/
def enter (b : Board) (v : VehicleId) (p : Prediction) : Board :=
  { b with
    byStop := b.byStop.alter (RouteStop.ofPrediction p) fun vehicles =>
      some ((vehicles.getD ∅).alter v fun list => some (list.getD [] ++ [p])) }

/-- Adds predictions of a vehicle to the lists of their stops. -/
def link (b : Board) (v : VehicleId) (new : List Prediction) : Board :=
  new.foldl (fun b p => b.enter v p) b

/-- Puts new predictions of a vehicle in place of its old ones, which it gives back. -/
def swap (b : Board) (v : VehicleId) (new : List Prediction) : List Prediction × Board :=
  let old := b.forVehicle v
  let b := (b.unlink v old).link v new
  (old, { b with
    byVehicle := if new.isEmpty then b.byVehicle.erase v else b.byVehicle.insert v new })

/-- The board with new predictions of a vehicle in place of its old ones. -/
def replace (b : Board) (v : VehicleId) (new : List Prediction) : Board := (b.swap v new).2

/-- Takes all predictions of a vehicle off the board. -/
def remove (b : Board) (v : VehicleId) : Board := b.replace v []

/-- Predictions in the order of their times, those for one time as they were. -/
def sorted (ps : List Prediction) : List Prediction := ps.mergeSort (·.time ≤ ·.time)

/-- The predictions for a stop on a route, soonest first; those for one time vehicle by vehicle. -/
def forStop (b : Board) (route : RouteId) (stop : StopId) : List Prediction :=
  sorted (((b.byStop[RouteStop.mk route stop]?).map (·.values.flatten)).getD [])

/-- All predictions, soonest first; those for one time vehicle by vehicle. -/
def all (b : Board) : List Prediction := sorted b.byVehicle.values.flatten

/-- The number of vehicles that have predictions. -/
def vehicleCount (b : Board) : Nat := b.byVehicle.size

end Board

end NextStop
