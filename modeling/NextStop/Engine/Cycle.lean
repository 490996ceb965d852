import NextStop.Engine.Basic
import NextStop.Forecast.Walk
import NextStop.Passage
import NextStop.Statistics.Gap

/-!
# The cycle after a placed report

A placed report leads, in this order, to new predictions, a headway, the arrivals and departures
since the report before, and a record of the position if the vehicle is between stops. Missing
data in one step never stops the steps after it.
-/

namespace NextStop

namespace Engine

variable {α : Type} [Scalar α]

/-- What a cycle works on: a vehicle's latest report and where it was placed. -/
structure Fix (α : Type) where
  report : Report α
  placement : Placement α
  trip : Trip α

/-- Who asks in a cycle. -/
def observer (s : Settings α) (v : Vehicle α) (f : Fix α) : Observer where
  vehicle := v.id
  serviceDate := ServiceDay.dateOf f.placement.serviceDay s.utcOffset
  time := f.report.time

/-- What the forecast of a cycle starts from. -/
def outset (v : Vehicle α) (f : Fix α) : Outset α where
  vehicle := v.id
  trip := f.trip
  placement := f.placement
  time := f.report.time
  headway := v.headway.map (·.gap)
  scheduleBased := v.scheduleBased

/-- Keeps and records the estimates for the stop paths. -/
def keepEstimates (e : Engine α) (now : Int) (estimates : List PathEstimate) : Engine α :=
  estimates.foldl (fun e p =>
    ({ e with statistics := e.statistics.putPathEstimate now p }).record (.pathEstimate p)) e

/-- Whether a prediction made from a report at `time` is within a number of seconds of it. -/
def withinSeconds (time : Int) (secs : Nat) (p : Prediction) : Bool :=
  p.time ≤ Time.later time (Span.ofSeconds secs)

/-- Whether a prediction goes on record. -/
def recordsPrediction (s : Settings α) (time : Int) (p : Prediction) : Bool :=
  s.recordedHorizon == 0 || withinSeconds time s.recordedHorizon p

/-- New predictions: those within the horizon replace the old ones. -/
def predict (e : Engine α) (now : Int) (v : Vehicle α) (f : Fix α) : Vehicle α × Engine α :=
  let (forecast, statistics) := Forecast.run e.statistics e.settings.strategy now (outset v f)
  let e := { e with statistics := statistics }
  let kept := forecast.predictions.filter
    (withinSeconds f.report.time e.settings.predictionHorizon)
  let e := if e.settings.recordPathEstimates then e.keepEstimates now forecast.estimates else e
  let e := (kept.filter (recordsPrediction e.settings f.report.time)).foldl
    (fun e p => e.record (.prediction p)) e
  ({ v with predictions := kept }, { e with board := e.board.replace v.id kept })

/-- The new headway. -/
def measureHeadway (e : Engine α) (now : Int) (v : Vehicle α) (f : Fix α) :
    Vehicle α × Engine α :=
  let headway := e.statistics.headway? now f.trip f.placement
    (observer e.settings v f)
  let e := match headway with
    | some h => e.record (.headway h)
    | none => e
  ({ v with headway := headway }, e)

/-- Puts an arrival or departure on record, and into the statistics if its route counts. -/
def recordStopEvent (e : Engine α) (now : Int) (ev : StopEvent) : Engine α :=
  let e := e.record (.stopEvent ev)
  if e.settings.routeCounts ev.route then
    { e with statistics := e.statistics.put now ev }
  else e

/-- The arrivals and departures since the report before. -/
def stopEvents (e : Engine α) (v : Vehicle α) (f : Fix α) : List StopEvent :=
  Passage.events v.id f.trip
    (v.previous.bind fun p => v.previousAt.map fun time => ⟨p, time⟩)
    ⟨f.placement, f.report.time⟩ e.settings.defaultRadius e.settings.utcOffset

/-- The position of a vehicle between stops. -/
def pathPosition (v : Vehicle α) (f : Fix α) : PathPosition α where
  vehicle := v.id
  time := f.report.time
  trip := f.placement.trip
  block := f.placement.block
  index := f.placement.index
  along := f.placement.along

/-- New predictions and a new headway, unless only arrivals and departures are asked for. -/
def refresh (e : Engine α) (now : Int) (v : Vehicle α) (f : Fix α) : Vehicle α × Engine α :=
  if e.settings.stopEventsOnly then (v, e)
  else
    let (v, e) := e.predict now v f
    e.measureHeadway now v f

/-- Runs the steps of a cycle. -/
def runCycle (e : Engine α) (now : Int) (v : Vehicle α) (f : Fix α) :
    Outcome × Vehicle α × Engine α :=
  let full := !e.settings.stopEventsOnly
  let stop := f.placement.atStop? f.trip e.settings.defaultRadius
  let waiting := ((stop.bind f.trip.stopPath?).map StopPath.waitStop).getD false
  let (v, e) := e.refresh now { v with atWaitStop := waiting } f
  let events := e.stopEvents v f
  let e := events.foldl (fun e ev => e.recordStopEvent now ev) e
  let between := full && stop.isNone
  let e := if between then e.record (.position (pathPosition v f)) else e
  (⟨if full then v.predictions.length else 0, if full then v.headway else none, between, events⟩,
    v, e.publish v)

/-- Processes the latest placed report of a vehicle. A vehicle that is not predictable, or lacks
a report or a placement, cannot be processed. A vehicle coupled behind another one leads to
nothing, and a placement beyond the end of the trip is rejected. -/
def processVehicle (e : Engine α) (now : Int) (v : Vehicle α) :
    Except EngineError Outcome × Vehicle α × Engine α :=
  if !v.predictable then
    (.error (.invariantViolation v.id "match processed while vehicle is not predictable"), v, e)
  else
    match v.lastReport, v.placement, v.trip with
    | some report, some placement, some trip =>
      if report.inConsist then (.ok .nothing, v, e)
      else if (trip.stopPath? placement.index).isNone then
        (.error (.stopPathOutOfRange trip.id placement.index trip.stopPaths.length), v, e)
      else
        let (outcome, v, e) := e.runCycle now v ⟨report, placement, trip⟩
        (.ok outcome, v, e)
    | _, _, _ =>
      (.error (.invariantViolation v.id "predictable vehicle without report or match"), v, e)

end Engine

end NextStop
