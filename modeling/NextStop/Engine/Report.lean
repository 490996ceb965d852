import NextStop.Engine.Cycle

/-!
# Reports and assignments

How an engine takes a report, and how a vehicle is taken off its assignment.
-/

namespace NextStop

namespace Engine

variable {α : Type} [Scalar α]

/-- Puts a change of status on record, if there was one. -/
def recordChange (e : Engine α) : Option StatusEvent → Engine α
  | some event => e.record (.status event)
  | none => e

/-- Takes a report that was placed on a trip. -/
def takePlaced (e : Engine α) (now : Int) (r : Report α) (p : Placement α) (t : Trip α)
    (scheduleBased : Bool) : Except EngineError Outcome × Engine α :=
  let (v, event) := (e.vehicle r.vehicle).place r p t
  let (result, v, e) :=
    (e.recordChange event).processVehicle now { v with scheduleBased := scheduleBased }
  (result, (e.keep v).watchFrom r.vehicle r.time)

/-- Takes a report that could not be placed. -/
def takeUnplaced (e : Engine α) (r : Report α) : Engine α :=
  let (v, event) := (e.vehicle r.vehicle).misplace r
  let e := match event with
    | some ev => e.afterDemotion v ev
    | none => e
  (e.keep v).watchFrom r.vehicle r.time

/-- Takes a report. Reports of vehicles coupled behind another one lead to nothing, and a
placement on a trip that the timetable does not have is rejected before anything is changed. -/
def take (e : Engine α) (now : Int) (m : MatchedReport α) :
    Except EngineError Outcome × Engine α :=
  if m.report.inConsist then (.ok .nothing, e)
  else
    match m.placement with
    | none => (.ok .nothing, e.takeUnplaced m.report)
    | some p =>
      match e.timetable.trip? p.trip with
      | none => (.error (.unknownTrip p.trip), e)
      | some t => e.takePlaced now m.report p t m.scheduleBased

/-- Takes a vehicle off its assignment; there is no event if the vehicle is not known. -/
def unassign (e : Engine α) (now : Int) (id : VehicleId) : Option StatusEvent × Engine α :=
  match e.vehicles[id]? with
  | none => (none, e)
  | some v =>
    let (v, event) := v.unassign now
    (some event, ((e.afterDemotion v event).keep v).unwatch id)

end Engine

end NextStop
