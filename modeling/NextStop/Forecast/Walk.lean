import NextStop.Forecast.Estimate
import NextStop.Placement

/-!
# Forecasts for a trip

A forecast walks a placed vehicle along the rest of its trip, adding estimated travel and dwell
times to the time of its report. It predicts the arrival at every stop ahead, and the departure
from every wait stop ahead, where the vehicle holds until its scheduled time.
-/

namespace NextStop

/-- What a forecast starts from. -/
structure Outset (α : Type) where
  vehicle : VehicleId
  trip : Trip α
  placement : Placement α
  /-- The time of the report. -/
  time : Int
  headway : Option Int
  scheduleBased : Bool

/-- The predictions for a vehicle, in the order of its way, and the estimates they add up. -/
structure Forecast where
  predictions : List Prediction
  estimates : List PathEstimate
  deriving DecidableEq

namespace Forecast

variable {α : Type} [Scalar α]

/-- The forecast without predictions. -/
def empty : Forecast := ⟨[], []⟩

/-- One forecast after the other. -/
def append (f g : Forecast) : Forecast :=
  ⟨f.predictions ++ g.predictions, f.estimates ++ g.estimates⟩

instance : Append Forecast := ⟨append⟩

/-- What the methods may consult at a vehicle's outset. -/
def situation (s : Statistics α) (o : Outset α) : Situation where
  observer :=
    { vehicle := o.vehicle
      serviceDate := ServiceDay.dateOf o.placement.serviceDay s.settings.utcOffset
      time := o.time }
  headway := o.headway

/-- An estimate for a segment as a record. -/
def estimateRecord (o : Outset α) (now : Int) (index : Nat) (quantity : Quantity)
    (e : Estimate) : PathEstimate where
  vehicle := o.vehicle
  created := now
  value := e.value
  trip := o.trip.id
  index := index
  method := e.method
  quantity := quantity
  scheduled := e.method == .timetable

/-- The prediction that the vehicle is at a stop at a time. -/
def predictionAt (o : Outset α) (now : Int) (index : Nat) (kind : StopEventKind) (time : Int) :
    Prediction where
  vehicle := o.vehicle
  route := o.trip.route
  trip := o.trip.id
  stop := (Segment.mk o.trip index).stop
  index := index
  time := time
  reportTime := o.time
  created := now
  kind := kind
  scheduleBased := o.scheduleBased

/-- The time at which a vehicle that is ready to leave a stop does so: at wait stops of service
with a timetable, not before the scheduled time. -/
def holdUntil (o : Outset α) (index : Nat) (ready : Int) : Int :=
  if o.trip.frequencyBased then ready
  else match o.trip.scheduledTime? index o.placement.serviceDay with
    | some scheduled => max ready scheduled
    | none => ready

/-- The dwell at a stop from an arrival on, and the time of the departure. -/
def depart (s : Statistics α) (methods : List Method) (o : Outset α) (now : Int) (index : Nat)
    (arrival : Int) : Forecast × Int :=
  let e := Estimate.dwell now ⟨o.trip, index⟩ (situation s o) s methods
  let ready := Time.wrap (arrival + e.value)
  let estimates := [estimateRecord o now index .dwell e]
  if ((o.trip.stopPath? index).map StopPath.waitStop).getD false then
    let time := holdUntil o index ready
    (⟨[predictionAt o now index .departure time], estimates⟩, time)
  else (⟨[], estimates⟩, ready)

/-- The walk over the segments in `indices`, entered at `time` with `remaining` of the first
stop path still ahead. -/
def walk (methods : List Method) (o : Outset α) (now : Int) :
    List Nat → Int → α → Statistics α → Forecast × Statistics α
  | [], _, _, s => (empty, s)
  | index :: rest, time, remaining, s =>
    let (e, s) := Estimate.travel now ⟨o.trip, index⟩ (situation s o) methods s
    let arrival := Time.wrap (time + Scalar.round ((e.value : α) * remaining))
    let here : Forecast :=
      ⟨[predictionAt o now index .arrival arrival], [estimateRecord o now index .travel e]⟩
    if o.trip.isLast index then (here, s)
    else
      let (leaving, departure) := depart s methods o now index arrival
      let (onward, s) := walk methods o now rest departure 1 s
      (here ++ (leaving ++ onward), s)

/-- The numbers of the stop paths from `first` to the end of a trip. -/
def ahead (trip : Trip α) (first : Nat) : List Nat :=
  List.range' first (trip.stopPaths.length - first)

/-- The forecast for a vehicle. A vehicle at a stop first dwells there, one at the last stop has
nothing ahead, and any other first covers the rest of its stop path. -/
def run (s : Statistics α) (strategy : Strategy) (now : Int) (o : Outset α) :
    Forecast × Statistics α :=
  let methods := strategy.methods
  match o.placement.atStop? o.trip s.settings.defaultRadius with
  | some stop =>
    if o.trip.isLast stop then (empty, s)
    else
      let (leaving, departure) := depart s methods o now stop o.time
      let (onward, s) := walk methods o now (ahead o.trip (stop + 1)) departure 1 s
      (leaving ++ onward, s)
  | none =>
    walk methods o now (ahead o.trip o.placement.index) o.time (1 - o.placement.fraction) s

end Forecast

end NextStop
