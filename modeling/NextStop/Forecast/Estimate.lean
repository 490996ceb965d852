import NextStop.Statistics.Basic

/-!
# Estimates of travel and dwell times

A strategy is a chain of methods. Each method either has the data to answer, or hands the
question to the rest of the chain; the timetable at the end always answers. The Kalman filter
also keeps its error: a segment that it meets for the first time gets an initial error and is
left to the rest of the chain.
-/

namespace NextStop

/-- The methods of a strategy, in the order in which they are consulted. -/
def Strategy.methods : Strategy → List Method
  | lastVehicle => [.lastVehicle, .timetable]
  | historicalAverage => [.historicalAverage, .lastVehicle, .timetable]
  | kalman => [.kalman, .historicalAverage, .lastVehicle, .timetable]
  | rlsDwell => [.rls, .kalman, .historicalAverage, .lastVehicle, .timetable]

/-- The result of weighing an expectation against a measurement. -/
structure KalmanUpdate (α : Type) where
  /-- The weight of the measurement. -/
  gain : α
  estimate : α
  /-- The error of the estimate. -/
  error : α
  deriving DecidableEq

/-- One step of a scalar Kalman filter. The gain is the share of the prior error in the total
error, zero if there is no error at all. Negative errors count as none. -/
def kalmanUpdate {α : Type} [Scalar α] (prior priorError measurement noise : α) :
    KalmanUpdate α :=
  let priorError := Scalar.positivePart priorError
  let total := priorError + Scalar.positivePart noise
  let gain := if 0 < total then Scalar.clamp 0 1 (priorError / total) else 0
  { gain
    estimate := prior + gain * (measurement - prior)
    error := (1 - gain) * priorError }

/-- A travel or dwell time in milliseconds and the method that gave it. -/
structure Estimate where
  value : Int
  method : Method
  deriving DecidableEq

/-- What a method may consult besides the segment: who asks, and the headway, if known. -/
structure Situation where
  observer : Observer
  headway : Option Int

namespace Estimate

variable {α : Type} [Scalar α]

/-- The scheduled time, zero for a stop path that the trip does not have. -/
def timetable (seg : Segment α) (quantity : Quantity) : Estimate :=
  let scheduled (p : StopPath α) : Int := match quantity with
    | .travel => p.travel
    | .dwell => p.dwell
  ⟨max ((seg.stopPath?.map scheduled).getD 0) 0, .timetable⟩

/-- The mean of the past on a segment, if enough samples are behind it. -/
def trustedMean? (s : Statistics α) (now : Int) (seg : Segment α) (quantity : Quantity)
    (time : Int) : Option α :=
  (s.segmentMean? now seg quantity time).bind (·.trusted? s.settings.minSamples)

/-- The travel time on a segment by a chain of methods, with the statistics after the filter
has kept its error. -/
def travel (now : Int) (seg : Segment α) (c : Situation) :
    List Method → Statistics α → Estimate × Statistics α
  | [], s => (timetable seg .travel, s)
  | .timetable :: _, s => (timetable seg .travel, s)
  | .lastVehicle :: rest, s =>
    match s.lastVehicleTravel? now seg c.observer with
    | some value => (⟨value, .lastVehicle⟩, s)
    | none => travel now seg c rest s
  | .historicalAverage :: rest, s =>
    match trustedMean? s now seg .travel c.observer.time with
    | some mean => (⟨Scalar.round mean, .historicalAverage⟩, s)
    | none => travel now seg c rest s
  | .kalman :: rest, s =>
    match s.kalmanError? now seg with
    | none =>
      let initial := s.settings.kalmanInitialError * Scalar.ofNat 1000
      travel now seg c rest (s.putKalmanError now seg initial)
    | some error =>
      match trustedMean? s now seg .travel c.observer.time,
          s.lastVehicleTravel? now seg c.observer with
      | some prior, some measurement =>
        let u := kalmanUpdate prior error (measurement : α)
          (s.settings.kalmanNoise * Scalar.ofNat 1000)
        (⟨max (Scalar.round u.estimate) 0, .kalman⟩, s.putKalmanError now seg u.error)
      | _, _ => travel now seg c rest s
  | .rls :: rest, s => travel now seg c rest s

/-- The dwell time at the stop of a segment by a chain of methods. The dwell model refines a
positive estimate of the rest of the chain, for service at intervals with a known headway. -/
def dwell (now : Int) (seg : Segment α) (c : Situation) (s : Statistics α) :
    List Method → Estimate
  | [] => timetable seg .dwell
  | .timetable :: _ => timetable seg .dwell
  | .lastVehicle :: rest =>
    match s.lastVehicleDwell? now seg c.observer with
    | some value => ⟨value, .lastVehicle⟩
    | none => dwell now seg c s rest
  | .historicalAverage :: rest =>
    match trustedMean? s now seg .dwell c.observer.time with
    | some mean => ⟨Scalar.round mean, .historicalAverage⟩
    | none => dwell now seg c s rest
  | .kalman :: rest => dwell now seg c s rest
  | .rls :: rest =>
    let plain := dwell now seg c s rest
    if !seg.trip.frequencyBased || plain.value ≤ 0 then plain
    else
      match c.headway.bind (s.dwellModels.predict? now
          (s.pathKey .dwell seg.trip.id seg.index true c.observer.time)) with
      | some value => ⟨max value 0, .rls⟩
      | none => plain

end Estimate

end NextStop
