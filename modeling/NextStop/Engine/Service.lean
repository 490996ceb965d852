import NextStop.Engine.Basic

/-!
# Questions to the engine

What the public may ask: predictions that are fresh enough, and the vehicles of the live map.
-/

namespace NextStop

namespace Engine

variable {α : Type} [Scalar α]

/-- Whether the report behind a prediction is recent enough for the prediction to be served. -/
def isFresh (s : Settings α) (now : Int) (p : Prediction) : Bool :=
  Time.sooner now p.reportTime ≤ Span.ofSeconds s.predictionMaxAge

/-- The fresh predictions of a vehicle. -/
def predictionsFor (e : Engine α) (now : Int) (id : VehicleId) : List Prediction :=
  (e.board.forVehicle id).filter (isFresh e.settings now)

/-- The fresh predictions for a stop on a route, soonest first. -/
def predictionsAt (e : Engine α) (now : Int) (route : RouteId) (stop : StopId) :
    List Prediction :=
  (e.board.forStop route stop).filter (isFresh e.settings now)

/-- All fresh predictions that are due within the prediction horizon, soonest first. -/
def predictionsDue (e : Engine α) (now : Int) : List Prediction :=
  let horizon := Time.later now (Span.ofSeconds e.settings.predictionHorizon)
  e.board.all.filter fun p => p.time ≤ horizon && isFresh e.settings now p

/-- A vehicle of the live map. -/
def liveVehicle? (e : Engine α) (id : VehicleId) : Option (Snapshot α) := e.live[id]?

/-- The vehicles of the live map, by name. -/
def liveVehicles (e : Engine α) : List (Snapshot α) := e.live.values

/-- The vehicles of the live map on a route, by name. -/
def liveVehiclesOn (e : Engine α) (route : RouteId) : List (Snapshot α) :=
  e.liveVehicles.filter fun s => s.route == some route

end Engine

end NextStop
