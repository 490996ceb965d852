import NextStop.Board
import NextStop.Records.FillAlarm
import NextStop.Records.Journal
import NextStop.Schedule.Timetable
import NextStop.Statistics.Basic
import NextStop.Vehicle

/-!
# The engine

The engine holds the state of a fleet: what is known of each vehicle, the predictions in force,
the statistics, the map of vehicles for the public, and the watch over vehicles that report. It
is a value; every operation takes the reading of the clock and gives the engine after it. What
an operation puts on record is added to the journal.
-/

namespace NextStop

/-- The state of a fleet. -/
structure Engine (α : Type) where
  timetable : Timetable α
  statistics : Statistics α
  vehicles : Std.TreeMap VehicleId (Vehicle α)
  board : Board
  /-- The vehicles as the public sees them. -/
  live : Std.TreeMap VehicleId (Snapshot α)
  /-- The vehicles that are watched for silence, with the time of the latest report of each. -/
  watch : Std.TreeMap VehicleId Int
  alarm : FillAlarm α
  journal : Journal α

/-- Why a report was rejected. -/
inductive EngineError where
  /-- A placed report was processed for a vehicle that is not ready for it. -/
  | invariantViolation (vehicle : VehicleId) (detail : String)
  | unknownTrip (trip : TripId)
  | stopPathOutOfRange (trip : TripId) (index length : Nat)
  deriving DecidableEq

/-- The wording of an error. -/
def EngineError.message : EngineError → String
  | invariantViolation vehicle detail =>
    "invariant violated for vehicle " ++ vehicle ++ ": " ++ detail
  | unknownTrip trip => "trip " ++ trip ++ " is not in the schedule"
  | stopPathOutOfRange trip index length =>
    "stop path index " ++ toString index ++ " out of range for trip " ++ trip ++ " with " ++
      toString length ++ " stop paths"

/-- What a placed report led to. -/
structure Outcome where
  /-- The number of predictions within the horizon. -/
  predictions : Nat
  headway : Option Headway
  positionRecorded : Bool
  stopEvents : List StopEvent
  deriving DecidableEq

/-- The outcome of a report that leads to nothing. -/
def Outcome.nothing : Outcome := ⟨0, none, false, []⟩

namespace Engine

variable {α : Type} [Scalar α]

/-- An engine that has seen nothing. -/
def start (settings : Settings α) (timetable : Timetable α) (journal : Journal α) :
    Engine α where
  timetable := timetable
  statistics := .empty settings
  vehicles := ∅
  board := .empty
  live := ∅
  watch := ∅
  alarm := .quiet settings.maxQueueFraction settings.queueFractionGap
  journal := journal

def settings (e : Engine α) : Settings α := e.statistics.settings

/-- Puts a record into the journal. -/
def record (e : Engine α) (r : Record α) : Engine α := { e with journal := e.journal.append r }

/-- The vehicle of a name; one that is not known yet if there is none. -/
def vehicle (e : Engine α) (id : VehicleId) : Vehicle α :=
  (e.vehicles[id]?).getD (.unknown id)

/-- Keeps what is known of a vehicle. -/
def keep (e : Engine α) (v : Vehicle α) : Engine α :=
  { e with vehicles := e.vehicles.insert v.id v }

/-- Shows a vehicle to the public, if it has reported. -/
def publish (e : Engine α) (v : Vehicle α) : Engine α :=
  match v.snapshot? with
  | some s => { e with live := e.live.insert v.id s }
  | none => e

/-- Takes a vehicle off the public map. -/
def unpublish (e : Engine α) (id : VehicleId) : Engine α := { e with live := e.live.erase id }

/-- Watches a vehicle that reported at a time; an older report never replaces a newer one. -/
def watchFrom (e : Engine α) (id : VehicleId) (time : Int) : Engine α :=
  { e with watch := e.watch.alter id fun last => some (max (last.getD time) time) }

/-- Stops watching a vehicle. -/
def unwatch (e : Engine α) (id : VehicleId) : Engine α := { e with watch := e.watch.erase id }

/-- What follows when a vehicle has stopped being predictable: its predictions go, the event
goes on record, and the public sees it. -/
def afterDemotion (e : Engine α) (v : Vehicle α) (event : StatusEvent) : Engine α :=
  (({ e with board := e.board.remove v.id }).record (.status event)).publish v

/-- The start of the configured days before now. -/
def warmUpStart (e : Engine α) (now : Int) : Int :=
  Time.wrap (now - Span.ofDays e.settings.warmUpDays)

/-- Feeds the events of a history that lie within the configured days before now into the
statistics. -/
def warmUp (e : Engine α) (now : Int) (history : List StopEvent) : Engine α :=
  { e with statistics := (e.statistics.populateFrom now history (e.warmUpStart now) now).1 }

/-- The number of events that a warm start feeds into the statistics. -/
def warmUpCount (e : Engine α) (now : Int) (history : List StopEvent) : Nat :=
  (e.statistics.populateFrom now history (e.warmUpStart now) now).2

/-- Checks how full the queue of records is; the alarm tells the result. -/
def checkQueue (e : Engine α) : Engine α := { e with alarm := e.alarm.check e.journal.level }

end Engine

end NextStop
