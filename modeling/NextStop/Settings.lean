import NextStop.Scalar
import NextStop.Time

/-!
# Settings

What an operator can choose, with the values that hold when nothing is chosen. Limits are whole
seconds, and their comparison with times in milliseconds goes through `Span.ofSeconds`.
-/

namespace NextStop

/-- Which estimators predict travel and dwell times. -/
inductive Strategy where
  /-- The most recent vehicle on the same segment. -/
  | lastVehicle
  /-- The mean of the past, then the most recent vehicle. -/
  | historicalAverage
  /-- Mean and most recent vehicle weighed against each other, then each alone. -/
  | kalman
  /-- As `kalman`, with dwell times that depend on the headway. -/
  | rlsDwell
  deriving DecidableEq

/-- The settings of the program. -/
structure Settings (α : Type) where
  /-- Seconds without a report before a vehicle times out. -/
  silenceLimit : Nat
  /-- Seconds past its scheduled departure that a silent vehicle may hold at a wait stop. -/
  waitStopGrace : Nat
  /-- Seconds past its first scheduled departure that an assignment without a real vehicle
  stays. -/
  scheduleGrace : Nat
  /-- Vehicles that time out also leave the live map. -/
  dropTimedOut : Bool
  /-- Seconds between two sweeps. -/
  pollingInterval : Nat
  /-- Samples that a mean needs before it is trusted. -/
  minSamples : Nat
  /-- The width of time of day buckets, in seconds. -/
  bucketWidth : Nat
  /-- Seconds ahead of the report beyond which predictions are dropped. -/
  predictionHorizon : Nat
  /-- The greatest age in seconds of a report whose predictions are served. -/
  predictionMaxAge : Nat
  /-- Seconds ahead of the report within which predictions are recorded; zero records all. -/
  recordedHorizon : Nat
  /-- Keep and record the estimates for the single stop paths. -/
  recordPathEstimates : Bool
  /-- Do nothing but detect arrivals and departures. -/
  stopEventsOnly : Bool
  strategy : Strategy
  /-- The error in seconds of a filter that is used for the first time. -/
  kalmanInitialError : α
  /-- The error in seconds of a single observed travel time. -/
  kalmanNoise : α
  /-- The greatest age in seconds of an observation of another vehicle. -/
  lastVehicleMaxAge : Nat
  /-- The shortest plausible travel time in seconds. -/
  minTravel : Nat
  /-- The longest plausible travel time in seconds. -/
  maxTravel : Nat
  /-- The longest plausible dwell time in seconds. -/
  maxDwell : Nat
  /-- The radius in metres of stops that have none of their own. -/
  defaultRadius : α
  /-- The number of entries that each cache of statistics keeps. -/
  cacheCapacity : Nat
  /-- Days after its last write that an entry of such a cache expires. -/
  cacheDays : Nat
  /-- Samples that a dwell model needs before it is trusted. -/
  dwellModelMinSamples : Nat
  /-- The weight that a dwell model keeps for its past with every sample. -/
  forgetting : α
  /-- The number of records that may wait to be written. -/
  queueCapacity : Nat
  /-- The fill of the queue above which the alarm goes off. -/
  maxQueueFraction : α
  /-- How far the fill has to come back below that for the alarm to end. -/
  queueFractionGap : α
  /-- Routes that are kept out of the statistics. -/
  excludedRoutes : List String
  /-- The offset of local time in seconds. -/
  utcOffset : Int
  /-- The days of history read on a warm start. -/
  warmUpDays : Nat
  deriving DecidableEq

namespace Settings

variable {α : Type}

/-- The settings that hold when nothing is chosen. -/
def standard [Scalar α] : Settings α where
  silenceLimit := 360
  waitStopGrace := 600
  scheduleGrace := 240
  dropTimedOut := false
  pollingInterval := 30
  minSamples := 3
  bucketWidth := 180
  predictionHorizon := 1800
  predictionMaxAge := 300
  recordedHorizon := 1800
  recordPathEstimates := false
  stopEventsOnly := false
  strategy := .kalman
  kalmanInitialError := Scalar.ofNat 50
  kalmanNoise := Scalar.ofNat 20
  lastVehicleMaxAge := 1800
  minTravel := 0
  maxTravel := 3600
  maxDwell := 1800
  defaultRadius := Scalar.ofNat 25
  cacheCapacity := 200000
  cacheDays := 8
  dwellModelMinSamples := 3
  forgetting := Scalar.ratio 98 100
  queueCapacity := 50000
  maxQueueFraction := Scalar.ratio 4 10
  queueFractionGap := Scalar.ratio 1 10
  excludedRoutes := []
  utcOffset := 0
  warmUpDays := 7

instance [Scalar α] : Inhabited (Settings α) := ⟨standard⟩

/-- Whether events of a route enter the statistics. -/
def routeCounts (s : Settings α) (route : String) : Bool := !s.excludedRoutes.contains route

/-- How long an entry of a cache of statistics lives. -/
def cacheLifetime (s : Settings α) : Int := Span.ofDays s.cacheDays

/-- The interval between two sweeps, at least a second. -/
def sweepInterval (s : Settings α) : Int := Span.ofSeconds (max s.pollingInterval 1)

theorem sweepInterval_pos (s : Settings α) : 0 < s.sweepInterval := by
  unfold sweepInterval Span.ofSeconds Time.latest
  omega

end Settings

end NextStop
