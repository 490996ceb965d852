import NextStop.Placement
import NextStop.Prediction

/-!
# Vehicles

What is known of a vehicle. A vehicle that is placed on its assignment is predictable: it has
predictions and may have a headway. It stops being so when a report cannot be placed, when it
falls silent or when it is taken off its assignment; only the last of these also forgets where
it was. Every change of status is an event.
-/

namespace NextStop

/-- What is known of a vehicle. -/
structure Vehicle (α : Type) where
  id : VehicleId
  /-- Where the vehicle was last placed. -/
  placement : Option (Placement α)
  /-- The trip that it is placed on. -/
  trip : Option (Trip α)
  /-- The time of the report that was placed. -/
  placedAt : Option Int
  /-- The placement before. -/
  previous : Option (Placement α)
  /-- The time of the report of the placement before. -/
  previousAt : Option Int
  predictable : Bool
  /-- The assignment was made without a real vehicle behind it. -/
  scheduleBased : Bool
  atWaitStop : Bool
  lastReport : Option (Report α)
  headway : Option Headway
  predictions : List Prediction
  lastEvent : Option StatusEvent
  deriving DecidableEq

/-- A vehicle as the public sees it. -/
structure Snapshot (α : Type) where
  vehicle : VehicleId
  time : Int
  lat : α
  lon : α
  route : Option RouteId
  trip : Option TripId
  block : Option BlockId
  predictable : Bool
  scheduleBased : Bool
  headway : Option Int
  deriving DecidableEq

namespace Vehicle

variable {α : Type}

/-- A vehicle of which nothing is known. -/
def unknown (id : VehicleId) : Vehicle α where
  id := id
  placement := none
  trip := none
  placedAt := none
  previous := none
  previousAt := none
  predictable := false
  scheduleBased := false
  atWaitStop := false
  lastReport := none
  headway := none
  predictions := []
  lastEvent := none

/-- The event of a change of status. -/
def event (v : Vehicle α) (time : Int) (kind : StatusKind) (description : String) :
    StatusEvent :=
  ⟨v.id, time, kind, description⟩

/-- Takes a placed report. The vehicle becomes predictable, which is an event if it was not. -/
def place (v : Vehicle α) (r : Report α) (p : Placement α) (t : Trip α) :
    Vehicle α × Option StatusEvent :=
  let v := { v with
    placement := some p
    trip := some t
    placedAt := some r.time
    previous := v.placement
    previousAt := v.placedAt
    lastReport := some r }
  if v.predictable then (v, none)
  else
    let e := v.event r.time .predictable "Vehicle matched to assignment"
    ({ v with predictable := true, lastEvent := some e }, some e)

/-- Ends predictions and headway but keeps the assignment. -/
def demote (v : Vehicle α) (kind : StatusKind) (description : String) (time : Int) :
    Vehicle α × StatusEvent :=
  let e := v.event time kind description
  ({ v with
    predictable := false
    atWaitStop := false
    headway := none
    predictions := []
    lastEvent := some e }, e)

/-- Takes a report that could not be placed. The vehicle keeps its assignment but is no longer
predictable, which is an event if it was. -/
def misplace (v : Vehicle α) (r : Report α) : Vehicle α × Option StatusEvent :=
  let v := { v with lastReport := some r }
  if v.predictable then
    let (v, e) := v.demote .noMatch "No match for AVL report" r.time
    (v, some e)
  else (v, none)

/-- Takes the vehicle off its assignment. -/
def unassign (v : Vehicle α) (time : Int) : Vehicle α × StatusEvent :=
  let (v, e) := v.demote .unassigned "Vehicle unassigned" time
  ({ v with
    placement := none
    trip := none
    placedAt := none
    previous := none
    previousAt := none
    scheduleBased := false }, e)

/-- The vehicle as the public sees it, once it has reported. -/
def snapshot? (v : Vehicle α) : Option (Snapshot α) :=
  v.lastReport.map fun r =>
    { vehicle := v.id
      time := r.time
      lat := r.lat
      lon := r.lon
      route := v.trip.map (·.route)
      trip := v.placement.map (·.trip)
      block := v.placement.map (·.block)
      predictable := v.predictable
      scheduleBased := v.scheduleBased
      headway := v.headway.map (·.gap) }

end Vehicle

end NextStop
