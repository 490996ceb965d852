import NextStop.ServiceDay
import NextStop.Statistics.DwellModel
import NextStop.Statistics.EventLog
import NextStop.Statistics.Plausible
import NextStop.Statistics.RunningMean

/-!
# Statistics

What is remembered of the past: the events of every trip run and of every stop and day, running
means of travel and dwell times, dwell models, filter errors, and the latest estimates for the
stop paths. `Statistics.put` feeds one event into all of them, `Statistics.populate` a whole
history.

Every access takes the reading of the clock, `now`, against which entries expire.
-/

namespace NextStop

/-- Everything that is remembered of the past. -/
structure Statistics (α : Type) where
  settings : Settings α
  /-- Means of service with a timetable. -/
  scheduleMeans : ExpiringCache PathKey (RunningMean α)
  /-- Means of service at intervals, by time of day. -/
  frequencyMeans : ExpiringCache PathKey (RunningMean α)
  /-- The current error of the filter of each segment, in milliseconds. -/
  kalmanErrors : ExpiringCache SegmentKey α
  runs : ExpiringCache RunKey EventLog
  stops : ExpiringCache StopDayKey EventLog
  pathEstimates : ExpiringCache PathKey PathEstimate
  dwellModels : DwellModels α

/-- Who looks for other vehicles: not itself, on its service day, as of a time. -/
structure Observer where
  vehicle : VehicleId
  serviceDate : Date
  time : Int

/-- Where the vehicle ahead is looked for: a stop, seen from a route and direction. -/
structure Approach where
  stop : StopId
  route : RouteId
  direction : Option String

namespace Statistics

variable {α : Type} [Scalar α]

/-- No statistics. -/
def empty (settings : Settings α) : Statistics α where
  settings := settings
  scheduleMeans := .empty settings.cacheCapacity settings.cacheLifetime
  frequencyMeans := .empty settings.cacheCapacity settings.cacheLifetime
  kalmanErrors := .empty settings.cacheCapacity settings.cacheLifetime
  runs := .empty settings.cacheCapacity settings.cacheLifetime
  stops := .empty settings.cacheCapacity settings.cacheLifetime
  pathEstimates := .empty settings.cacheCapacity settings.cacheLifetime
  dwellModels := .empty settings.cacheCapacity settings.cacheLifetime settings.forgetting
    settings.dwellModelMinSamples

/-! ## Keys -/

/-- The bucket of the day that holds a time. -/
def timeBucket (s : Statistics α) (time : Int) : Nat :=
  ServiceDay.bucket (ServiceDay.secondOfDay time s.settings.utcOffset) s.settings.bucketWidth

/-- The run that an event belongs to. Runs of service at intervals are told apart by the bucket
of their start. -/
def runKey (s : Statistics α) (e : StopEvent) : RunKey where
  trip := e.trip
  serviceDate := e.serviceDate
  start :=
    if e.frequencyBased then ServiceDay.bucket e.tripStart s.settings.bucketWidth
    else e.tripStart

/-- The stop and day that an event belongs to. -/
def stopDayKey (e : StopEvent) : StopDayKey := ⟨e.stop, e.serviceDate⟩

/-- The key of a travel or dwell time measured at a time. -/
def pathKey (s : Statistics α) (quantity : Quantity) (trip : TripId) (index : Nat)
    (frequencyBased : Bool) (time : Int) : PathKey where
  trip := trip
  index := index
  quantity := quantity
  bucket := if frequencyBased then some (s.timeBucket time) else none

/-- The key of the duration that ends with an event. -/
def eventPathKey (s : Statistics α) (quantity : Quantity) (e : StopEvent) : PathKey :=
  s.pathKey quantity e.trip e.index e.frequencyBased e.time

/-! ## Looking back -/

/-- The log of the run of a key. -/
def run? (s : Statistics α) (now : Int) (k : RunKey) : Option EventLog := s.runs.get? now k

/-- The log of a stop and day. -/
def stopDay? (s : Statistics α) (now : Int) (k : StopDayKey) : Option EventLog :=
  s.stops.get? now k

/-- The most recent departure of another vehicle of the same route and direction from a stop,
as of the observer's time. -/
def departureAhead? (s : Statistics α) (now : Int) (a : Approach) (o : Observer) :
    Option StopEvent :=
  (s.stopDay? now ⟨a.stop, o.serviceDate⟩).bind fun log =>
    log.latest? fun e =>
      e.time ≤ o.time && e.kind.isDeparture && e.vehicle != o.vehicle && e.route == a.route &&
        e.direction == a.direction

/-- The gap between a departure and the one before it from the same stop, by another vehicle of
the same route and direction. -/
def observedHeadway? (s : Statistics α) (now : Int) (e : StopEvent) : Option Int :=
  (s.departureAhead? now ⟨e.stop, e.route, e.direction⟩ ⟨e.vehicle, e.serviceDate, e.time⟩).map
    fun ahead => Time.wrap (e.time - ahead.time)

/-- The most recent event of another vehicle of the same route and direction on a segment, as
of the observer's time and not older than the settings allow. -/
def lastVehicleEvent? (s : Statistics α) (now : Int) (seg : Segment α) (o : Observer)
    (kind : StopEventKind) : Option StopEvent :=
  let oldest := Time.sooner o.time (Span.ofSeconds s.settings.lastVehicleMaxAge)
  (s.stopDay? now ⟨seg.stop, o.serviceDate⟩).bind fun log =>
    log.latest? fun e =>
      e.time ≤ o.time && oldest ≤ e.time && e.kind == kind && e.vehicle != o.vehicle &&
        e.route == seg.trip.route && e.direction == seg.trip.direction && e.index == seg.index

/-- The travel time of the most recent other vehicle on a segment, if it is plausible. -/
def lastVehicleTravel? (s : Statistics α) (now : Int) (seg : Segment α) (o : Observer) :
    Option Int :=
  (s.lastVehicleEvent? now seg o .arrival).bind fun arrival =>
    (s.run? now (s.runKey arrival)).bind fun log =>
      (log.previousDeparture? arrival).bind fun departure =>
        let travel := arrival.time - departure.time
        if s.settings.travelPlausible travel then some travel else none

/-- The dwell time of the most recent other vehicle at the stop of a segment, if it is
plausible. -/
def lastVehicleDwell? (s : Statistics α) (now : Int) (seg : Segment α) (o : Observer) :
    Option Int :=
  (s.lastVehicleEvent? now seg o .departure).bind fun departure =>
    (s.run? now (s.runKey departure)).bind fun log =>
      (log.matchingArrival? departure).bind fun arrival =>
        let dwell := departure.time - arrival.time
        if s.settings.dwellPlausible dwell then some dwell else none

/-- The mean under a key of service with a timetable or at intervals. -/
def mean? (s : Statistics α) (now : Int) (frequencyBased : Bool) (k : PathKey) :
    Option (RunningMean α) :=
  if frequencyBased then s.frequencyMeans.get? now k else s.scheduleMeans.get? now k

/-- The mean of a travel or dwell time on a segment, at intervals for the time of day of
`time`. -/
def segmentMean? (s : Statistics α) (now : Int) (seg : Segment α) (quantity : Quantity)
    (time : Int) : Option (RunningMean α) :=
  s.mean? now seg.trip.frequencyBased
    (s.pathKey quantity seg.trip.id seg.index seg.trip.frequencyBased time)

/-- The error of the filter of a segment. -/
def kalmanError? (s : Statistics α) (now : Int) (seg : Segment α) : Option α :=
  s.kalmanErrors.get? now ⟨seg.trip.id, seg.index⟩

/-! ## Recording -/

/-- Keeps the error of the filter of a segment; errors are not negative. -/
def putKalmanError (s : Statistics α) (now : Int) (seg : Segment α) (error : α) :
    Statistics α :=
  { s with
    kalmanErrors :=
      s.kalmanErrors.put now ⟨seg.trip.id, seg.index⟩ (Scalar.positivePart error) }

/-- Keeps an estimate for a stop path, in place of the one before. -/
def putPathEstimate (s : Statistics α) (now : Int) (p : PathEstimate) : Statistics α :=
  { s with
    pathEstimates := s.pathEstimates.put now (.plain p.quantity p.trip p.index) p }

/-- The latest estimate under a key. -/
def pathEstimate? (s : Statistics α) (now : Int) (k : PathKey) : Option PathEstimate :=
  s.pathEstimates.get? now k

/-- Adds a duration to the mean under a key. -/
def addToMean (s : Statistics α) (now : Int) (frequencyBased : Bool) (k : PathKey)
    (duration : Int) : Statistics α :=
  let add (m : Option (RunningMean α)) : RunningMean α := (m.getD .empty).add (duration : α)
  if frequencyBased then { s with frequencyMeans := s.frequencyMeans.update now k add }
  else { s with scheduleMeans := s.scheduleMeans.update now k add }

/-- The log of the run of an event with the event in it. -/
def runWith (s : Statistics α) (now : Int) (e : StopEvent) : EventLog :=
  ((s.run? now (s.runKey e)).getD .empty).push e

/-- Adds an event to the log of its run. -/
def pushRun (s : Statistics α) (now : Int) (e : StopEvent) : Statistics α :=
  { s with runs := s.runs.put now (s.runKey e) (s.runWith now e) }

/-- Adds an event to the log of its stop and day. -/
def pushStop (s : Statistics α) (now : Int) (e : StopEvent) : Statistics α :=
  { s with
    stops := s.stops.update now (stopDayKey e) fun log => (log.getD .empty).push e }

/-- Adds the travel time that ends with an arrival, `log` being the log of its run. -/
def recordTravel (s : Statistics α) (now : Int) (log : EventLog) (arrival : StopEvent) :
    Statistics α :=
  match log.previousDeparture? arrival with
  | none => s
  | some departure =>
    let travel := arrival.time - departure.time
    if s.settings.travelPlausible travel then
      s.addToMean now arrival.frequencyBased (s.eventPathKey .travel arrival) travel
    else s

/-- Adds the dwell time that ends with a departure, `log` being the log of its run, and if the
headway is known also a sample for the dwell model. -/
def recordDwell (s : Statistics α) (now : Int) (log : EventLog) (departure : StopEvent)
    (headway : Option Int) : Statistics α :=
  match log.matchingArrival? departure with
  | none => s
  | some arrival =>
    let dwell := departure.time - arrival.time
    if s.settings.dwellPlausible dwell then
      let k := s.eventPathKey .dwell departure
      let s := s.addToMean now departure.frequencyBased k dwell
      match headway with
      | none => s
      | some gap => { s with dwellModels := s.dwellModels.add now k gap dwell }
    else s

/-- Feeds an event into all statistics. The headway of a departure is taken before the departure
itself enters the log of its stop. -/
def put (s : Statistics α) (now : Int) (e : StopEvent) : Statistics α :=
  let log := s.runWith now e
  let s := s.pushRun now e
  let s := match e.kind with
    | .arrival => s.recordTravel now log e
    | .departure => s.recordDwell now log e (s.observedHeadway? now e)
  s.pushStop now e

/-! ## History in bulk -/

/-- The events with times from `first` on and before `past`. -/
def window (first past : Int) (events : List StopEvent) : List StopEvent :=
  events.filter fun e => first ≤ e.time && e.time < past

/-- The events of a history that enter the statistics, oldest first: those of routes that
count. -/
def admitted (settings : Settings α) (events : List StopEvent) : List StopEvent :=
  (events.mergeSort (·.time ≤ ·.time)).filter fun e => settings.routeCounts e.route

/-- Feeds a history into all statistics. -/
def populate (s : Statistics α) (now : Int) (events : List StopEvent) : Statistics α :=
  (admitted s.settings events).foldl (fun s e => s.put now e) s

/-- Feeds the events of a history with times from `first` on and before `past` into all statistics,
and counts those that enter. -/
def populateFrom (s : Statistics α) (now : Int) (history : List StopEvent) (first past : Int) :
    Statistics α × Nat :=
  let events := window first past history
  (s.populate now events, (admitted s.settings events).length)

end Statistics

end NextStop
