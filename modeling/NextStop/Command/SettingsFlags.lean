import NextStop.Command.Flag
import NextStop.Settings

/-!
# Flags of the settings

Every setting has a flag, and a variable of the environment that may set it.
-/

namespace NextStop

namespace Strategy

/-- The name of a strategy on the command line. -/
def name : Strategy → String
  | lastVehicle => "last-vehicle"
  | historicalAverage => "historical-average"
  | kalman => "kalman"
  | rlsDwell => "rls-dwell"

/-- What a strategy does. -/
def about : Strategy → String
  | lastVehicle => "Travel time of the most recent vehicle over the same segment"
  | historicalAverage => "Historical average, falling back to last vehicle"
  | kalman => "Kalman filtered travel time, falling back to historical average"
  | rlsDwell => "Kalman travel times plus headway conditioned RLS dwell times"

/-- All strategies. -/
def all : List Strategy := [lastVehicle, historicalAverage, kalman, rlsDwell]

/-- The strategy of a name. -/
def ofName? (s : String) : Option Strategy := all.find? fun x => x.name == s

end Strategy

namespace Settings

/-- A flag of the settings. -/
def flag (name variableName about : String) (use : Use (Settings Float)) :
    Flag (Settings Float) :=
  ⟨name, none, some variableName, about, use⟩

/-- The flags of the settings. -/
def flags : List (Flag (Settings Float)) := [
  flag "allowable-no-avl-secs" "TRANSIT_ALLOWABLE_NO_AVL_SECS"
    "Seconds without an AVL report before a predictable vehicle times out"
    (.natural64 ⟨(·.silenceLimit), fun n s => { s with silenceLimit := n }⟩),
  flag "allowable-no-avl-after-sched-depart-secs"
    "TRANSIT_ALLOWABLE_NO_AVL_AFTER_SCHED_DEPART_SECS"
    "Seconds past the scheduled wait stop departure before a silent vehicle times out"
    (.natural64 ⟨(·.waitStopGrace), fun n s => { s with waitStopGrace := n }⟩),
  flag "sched-based-timeout-secs" "TRANSIT_SCHED_BASED_TIMEOUT_SECS"
    "Seconds past the scheduled departure before a schedule based vehicle is dropped"
    (.natural64 ⟨(·.scheduleGrace), fun n s => { s with scheduleGrace := n }⟩),
  flag "remove-timed-out-vehicles-from-vehicle-data-cache" "TRANSIT_REMOVE_TIMED_OUT_VEHICLES"
    "Also evict timed out vehicles from the live vehicle cache"
    (.switch ⟨(·.dropTimedOut), fun b s => { s with dropTimedOut := b }⟩),
  flag "polling-rate-secs" "TRANSIT_POLLING_RATE_SECS"
    "Interval between timeout sweeps"
    (.natural64 ⟨(·.pollingInterval), fun n s => { s with pollingInterval := n }⟩),
  flag "min-historical-samples" "TRANSIT_MIN_HISTORICAL_SAMPLES"
    "Samples required before a historical average is trusted over the schedule"
    (.natural32 ⟨(·.minSamples), fun n s => { s with minSamples := n }⟩),
  flag "cache-increments-for-frequency-service-secs"
    "TRANSIT_CACHE_INCREMENTS_FOR_FREQUENCY_SERVICE_SECS"
    "Time of day bucket width for frequency based cache keys"
    (.natural32 ⟨(·.bucketWidth), fun n s => { s with bucketWidth := n }⟩),
  flag "max-prediction-horizon-secs" "TRANSIT_MAX_PREDICTION_HORIZON_SECS"
    "Predictions further ahead of the AVL report than this are discarded"
    (.natural64 ⟨(·.predictionHorizon), fun n s => { s with predictionHorizon := n }⟩),
  flag "max-prediction-age-secs" "TRANSIT_MAX_PREDICTION_AGE_SECS"
    "Predictions generated from reports older than this are not served"
    (.natural64 ⟨(·.predictionMaxAge), fun n s => { s with predictionMaxAge := n }⟩),
  flag "max-predictions-time-for-db-secs" "TRANSIT_MAX_PREDICTIONS_TIME_FOR_DB_SECS"
    "Only predictions within this many seconds of the report are persisted (0 disables)"
    (.natural64 ⟨(·.recordedHorizon), fun n s => { s with recordedHorizon := n }⟩),
  flag "store-travel-time-stop-path-predictions" "TRANSIT_STORE_STOP_PATH_PREDICTIONS"
    "Record per stop path estimates in the stop path prediction cache"
    (.switch ⟨(·.recordPathEstimates), fun b s => { s with recordPathEstimates := b }⟩),
  flag "only-need-arrival-departures" "TRANSIT_ONLY_NEED_ARRIVAL_DEPARTURES"
    "Skip predictions, headways and spatial matches; only emit arrivals/departures"
    (.switch ⟨(·.stopEventsOnly), fun b s => { s with stopEventsOnly := b }⟩),
  flag "prediction-strategy" "TRANSIT_PREDICTION_STRATEGY"
    ""
    (.choice (Strategy.all.map fun x => ⟨x.name, x.about⟩) ⟨(·.strategy.name), fun x s =>
      { s with strategy := (Strategy.ofName? x).getD s.strategy }⟩),
  flag "kalman-initial-error-secs" "TRANSIT_KALMAN_INITIAL_ERROR_SECS"
    "Error assigned to a segment the first time the Kalman filter sees it"
    (.double ⟨(·.kalmanInitialError), fun x s => { s with kalmanInitialError := x }⟩),
  flag "kalman-measurement-noise-secs" "TRANSIT_KALMAN_MEASUREMENT_NOISE_SECS"
    ""
    (.double ⟨(·.kalmanNoise), fun x s => { s with kalmanNoise := x }⟩),
  flag "last-vehicle-max-age-secs" "TRANSIT_LAST_VEHICLE_MAX_AGE_SECS"
    "Oldest last-vehicle observation still used as a measurement"
    (.natural64 ⟨(·.lastVehicleMaxAge), fun n s => { s with lastVehicleMaxAge := n }⟩),
  flag "min-travel-time-secs" "TRANSIT_MIN_TRAVEL_TIME_SECS"
    ""
    (.natural64 ⟨(·.minTravel), fun n s => { s with minTravel := n }⟩),
  flag "max-travel-time-secs" "TRANSIT_MAX_TRAVEL_TIME_SECS"
    ""
    (.natural64 ⟨(·.maxTravel), fun n s => { s with maxTravel := n }⟩),
  flag "max-dwell-time-secs" "TRANSIT_MAX_DWELL_TIME_SECS"
    ""
    (.natural64 ⟨(·.maxDwell), fun n s => { s with maxDwell := n }⟩),
  flag "default-stop-radius-m" "TRANSIT_DEFAULT_STOP_RADIUS_M"
    "Radius used for stops that do not carry their own"
    (.double ⟨(·.defaultRadius), fun x s => { s with defaultRadius := x }⟩),
  flag "cache-capacity" "TRANSIT_CACHE_CAPACITY"
    "Entries kept per statistics cache"
    (.natural64 ⟨(·.cacheCapacity), fun n s => { s with cacheCapacity := n }⟩),
  flag "cache-ttl-days" "TRANSIT_CACHE_TTL_DAYS"
    "Days after its last write that a statistics entry expires"
    (.natural32 ⟨(·.cacheDays), fun n s => { s with cacheDays := n }⟩),
  flag "dwell-model-min-samples" "TRANSIT_DWELL_MODEL_MIN_SAMPLES"
    ""
    (.natural32 ⟨(·.dwellModelMinSamples), fun n s => { s with dwellModelMinSamples := n }⟩),
  flag "rls-forgetting-factor" "TRANSIT_RLS_FORGETTING_FACTOR"
    ""
    (.double ⟨(·.forgetting), fun x s => { s with forgetting := x }⟩),
  flag "persistence-queue-capacity" "TRANSIT_PERSISTENCE_QUEUE_CAPACITY"
    ""
    (.natural64 ⟨(·.queueCapacity), fun n s => { s with queueCapacity := n }⟩),
  flag "max-queue-fraction" "TRANSIT_MAX_QUEUE_FRACTION"
    "Queue fill fraction that triggers the queue monitor"
    (.double ⟨(·.maxQueueFraction), fun x s => { s with maxQueueFraction := x }⟩),
  flag "max-queue-fraction-gap" "TRANSIT_MAX_QUEUE_FRACTION_GAP"
    ""
    (.double ⟨(·.queueFractionGap), fun x s => { s with queueFractionGap := x }⟩),
  flag "excluded-routes" "TRANSIT_EXCLUDED_ROUTES"
    "Routes ignored when replaying history into the caches"
    (.list ⟨(·.excludedRoutes), fun routes s => { s with excludedRoutes := routes }⟩),
  flag "service-utc-offset-secs" "TRANSIT_SERVICE_UTC_OFFSET_SECS"
    "Offset of the agency's local time from UTC, for time of day buckets"
    (.integer .signed32 ⟨(·.utcOffset), fun n s => { s with utcOffset := n }⟩),
  flag "warmup-days" "TRANSIT_WARMUP_DAYS"
    "Days of arrival/departure history replayed at warm-up"
    (.natural32 ⟨(·.warmUpDays), fun n s => { s with warmUpDays := n }⟩)]

/-- The settings of a command line that has no other flags. -/
def parse (environment : String → Option String) (arguments : List String) :
    Except Refusal (Settings Float) :=
  Flag.parse flags [] environment .standard arguments

end Settings

end NextStop
