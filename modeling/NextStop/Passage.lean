import NextStop.Placement
import NextStop.ServiceDay
import NextStop.StopEvent

/-!
# Arrivals and departures between two reports

Two consecutive placements of a vehicle on one trip tell which stops it left, passed and
reached in between. The times of stops that were passed without a report are interpolated on
the scale of `Placement.position`, on which stop `k` lies at `k`.
-/

namespace NextStop

/-- A placement with the time of its report. -/
structure Sighting (α : Type) where
  placement : Placement α
  time : Int
  deriving DecidableEq

namespace Passage

variable {α : Type} [Scalar α]

/-- An arrival at a stop or departure from it, before it is put on record. -/
structure Mark where
  index : Nat
  time : Int
  kind : StopEventKind
  deriving DecidableEq

/-- Two sightings can be compared if they are on the same trip and service day and neither time
nor position goes back. -/
def comparable (before now : Sighting α) : Bool :=
  before.placement.trip == now.placement.trip &&
    before.placement.serviceDay == now.placement.serviceDay &&
    !decide (now.placement.position < before.placement.position) &&
    before.time ≤ now.time

/-- The time at which the vehicle was at a stop between two sightings, by its share of the way;
the later time if there was no way to speak of. -/
def timeAt (before now : Sighting α) (stop : Nat) : Int :=
  let start := before.placement.position
  let way := now.placement.position - start
  if way ≤ Scalar.epsilon then now.time
  else
    let share := Scalar.clamp 0 1 ((Scalar.ofNat stop - start) / way)
    before.time + Scalar.round (((now.time - before.time : Int) : α) * share)

/-- The departure from the stop that the vehicle was at, at the time of that sighting. -/
def left (trip : Trip α) (defaultRadius : α) (before : Sighting α) : List Mark :=
  match before.placement.atStop? trip defaultRadius with
  | some stop => [Mark.mk stop before.time .departure]
  | none => []

/-- Arrival and departure at every stop of the trip that was ahead before and is behind now. -/
def passed (trip : Trip α) (defaultRadius : α) (before now : Sighting α) : List Mark :=
  let first := before.placement.ahead trip defaultRadius
  let behind := now.placement.behind trip defaultRadius
  (List.range' first (min behind trip.stopPaths.length - first)).flatMap fun stop =>
    let time := timeAt before now stop
    [Mark.mk stop time .arrival, Mark.mk stop time .departure]

/-- The arrival at the stop that the vehicle is at now, if it was ahead before. -/
def reached (trip : Trip α) (defaultRadius : α) (before now : Sighting α) : List Mark :=
  match now.placement.atStop? trip defaultRadius with
  | some stop =>
    if before.placement.ahead trip defaultRadius ≤ stop then
      [Mark.mk stop (timeAt before now stop) .arrival]
    else []
  | none => []

/-- What happened between two comparable sightings, in order. A vehicle that was at a stop left
it at the time of the first sighting. Every stop up to the last one behind it was passed, and
the stop that it is at now was reached. Nothing happened if it is still at the same stop. -/
def marks (trip : Trip α) (defaultRadius : α) (before now : Sighting α) : List Mark :=
  let was := before.placement.atStop? trip defaultRadius
  if was.isSome && was == now.placement.atStop? trip defaultRadius then []
  else
    left trip defaultRadius before ++
      (passed trip defaultRadius before now ++ reached trip defaultRadius before now)

/-- A mark on record, if the trip has the stop. -/
def record? (vehicle : VehicleId) (trip : Trip α) (serviceDay offset : Int) (m : Mark) :
    Option StopEvent :=
  (trip.stopPath? m.index).map fun p =>
    { vehicle
      trip := trip.id
      route := trip.route
      direction := trip.direction
      block := trip.block
      stop := p.stop
      index := m.index
      time := m.time
      kind := m.kind
      serviceDate := ServiceDay.dateOf serviceDay offset
      tripStart := trip.start
      frequencyBased := trip.frequencyBased
      scheduled := if trip.frequencyBased then none else trip.scheduledTime? m.index serviceDay }

/-- The events between two sightings. There are none before the first sighting, on a change of
trip or day, and when the vehicle or the time went back. -/
def events (vehicle : VehicleId) (trip : Trip α) (before : Option (Sighting α))
    (now : Sighting α) (defaultRadius : α) (offset : Int) : List StopEvent :=
  match before with
  | none => []
  | some before =>
    if comparable before now then
      (marks trip defaultRadius before now).filterMap
        (record? vehicle trip now.placement.serviceDay offset)
    else []

end Passage

end NextStop
