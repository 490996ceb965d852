import NextStop.Statistics.Basic

/-!
# Questions to the statistics

What can be asked of the statistics from outside: their sizes, single values, and the recorded
history of stops and trip runs.
-/

namespace NextStop

/-- The number of live entries of each kind. -/
structure KeyCounts where
  scheduleMeans : Nat
  frequencyMeans : Nat
  kalmanErrors : Nat
  runs : Nat
  stops : Nat
  pathEstimates : Nat
  dwellModels : Nat
  deriving DecidableEq

/-- Which trip runs are asked for. -/
inductive RunSelection where
  /-- One run. -/
  | run (key : RunKey)
  /-- The runs of a trip on a day. -/
  | onDay (trip : TripId) (date : Date)
  /-- All runs of a trip. -/
  | ofTrip (trip : TripId)
  /-- The runs of all trips on a day. -/
  | ofDay (date : Date)

namespace RunSelection

/-- The selection by trip, day and start, each of which may be left open. A start alone says
nothing, nor does it without both others. -/
def ofParts? : Option TripId → Option Date → Option Nat → Option RunSelection
  | some trip, some date, some start => some (.run ⟨trip, date, start⟩)
  | some trip, some date, none => some (.onDay trip date)
  | some trip, none, none => some (.ofTrip trip)
  | none, some date, none => some (.ofDay date)
  | _, _, _ => none

/-- Whether a run is selected. -/
def selects : RunSelection → RunKey → Bool
  | run key, k => k == key
  | onDay trip date, k => k.trip == trip && k.serviceDate == date
  | ofTrip trip, k => k.trip == trip
  | ofDay date, k => k.serviceDate == date

end RunSelection

/-- Events in the order of a trip history: by time, then by stop, arrivals before departures. -/
def StopEvent.before (a b : StopEvent) : Bool :=
  if a.time ≠ b.time then a.time < b.time
  else if a.index ≠ b.index then a.index < b.index
  else a.kind.isArrival || b.kind.isDeparture

namespace Statistics

variable {α : Type} [Scalar α]

/-- The mean travel time on a stop path of service with a timetable. -/
def travelMean? (s : Statistics α) (now : Int) (trip : TripId) (index : Nat) :
    Option (RunningMean α) :=
  s.mean? now false (.plain .travel trip index)

/-- The mean under a key; the key tells which kind of service it belongs to. -/
def meanByKey? (s : Statistics α) (now : Int) (k : PathKey) : Option (RunningMean α) :=
  s.mean? now k.bucket.isSome k

/-- The number of live entries of each kind. -/
def keyCounts (s : Statistics α) (now : Int) : KeyCounts where
  scheduleMeans := (s.scheduleMeans.keys now).length
  frequencyMeans := (s.frequencyMeans.keys now).length
  kalmanErrors := (s.kalmanErrors.keys now).length
  runs := (s.runs.keys now).length
  stops := (s.stops.keys now).length
  pathEstimates := (s.pathEstimates.keys now).length
  dwellModels := (s.dwellModels.keys now).length

/-- Today's events at a stop, oldest first. -/
def stopHistory (s : Statistics α) (now : Int) (stop : StopId) : List StopEvent :=
  ((s.stopDay? now ⟨stop, ServiceDay.dateOf now s.settings.utcOffset⟩).map EventLog.toList).getD []

/-- The events of the selected runs in the order of a trip history. Events that this order does
not tell apart come run by run, and within a run as logged. -/
def tripHistory (s : Statistics α) (now : Int) (selection : RunSelection) : List StopEvent :=
  let keys := (s.runs.keys now).filter selection.selects
  let logs := keys.filterMap (s.run? now)
  (logs.flatMap EventLog.toList).mergeSort StopEvent.before

end Statistics

end NextStop
