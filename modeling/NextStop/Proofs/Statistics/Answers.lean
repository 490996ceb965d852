import NextStop.Proofs.Statistics.Footprint
import NextStop.Statistics.Query

/-!
# What is asked of the statistics

Every question to the statistics is answered from what their caches answer. So statistics that are
alike give the same answers to all of them, `Statistics.Alike.sameAnswers`.
-/

namespace NextStop

namespace Statistics

variable {α : Type}

/-- Statistics that give the same answers to every question at every reading of the clock. -/
structure SameAnswers [Scalar α] (s s' : Statistics α) : Prop where
  mean? : ∀ now frequencyBased k, s'.mean? now frequencyBased k = s.mean? now frequencyBased k
  segmentMean? : ∀ now seg quantity time,
    s'.segmentMean? now seg quantity time = s.segmentMean? now seg quantity time
  kalmanError? : ∀ now seg, s'.kalmanError? now seg = s.kalmanError? now seg
  pathEstimate? : ∀ now k, s'.pathEstimate? now k = s.pathEstimate? now k
  predictedDwell? : ∀ now k headway,
    s'.dwellModels.predict? now k headway = s.dwellModels.predict? now k headway
  run? : ∀ now k, s'.run? now k = s.run? now k
  stopDay? : ∀ now k, s'.stopDay? now k = s.stopDay? now k
  departureAhead? : ∀ now a o, s'.departureAhead? now a o = s.departureAhead? now a o
  lastVehicleTravel? : ∀ now seg o,
    s'.lastVehicleTravel? now seg o = s.lastVehicleTravel? now seg o
  lastVehicleDwell? : ∀ now seg o, s'.lastVehicleDwell? now seg o = s.lastVehicleDwell? now seg o
  keys : ∀ (x : Shelf) now, (s'.shelf x).keys now = (s.shelf x).keys now
  keyCounts : ∀ now, s'.keyCounts now = s.keyCounts now
  stopHistory : ∀ now stop, s'.stopHistory now stop = s.stopHistory now stop
  tripHistory : ∀ now selection, s'.tripHistory now selection = s.tripHistory now selection

namespace Alike

variable {s s' : Statistics α} (h : s.Alike s')
include h

theorem run?_eq (now : Int) (k : RunKey) : s'.run? now k = s.run? now k := h.get?_eq .runs now k

theorem stopDay?_eq (now : Int) (k : StopDayKey) : s'.stopDay? now k = s.stopDay? now k :=
  h.get?_eq .stops now k

theorem mean?_eq (now : Int) (frequencyBased : Bool) (k : PathKey) :
    s'.mean? now frequencyBased k = s.mean? now frequencyBased k := by
  rw [mean?, mean?]
  split
  · exact h.get?_eq .frequencyMeans now k
  · exact h.get?_eq .scheduleMeans now k

theorem keys_eq (x : Shelf) (now : Int) : (s'.shelf x).keys now = (s.shelf x).keys now :=
  ExpiringCache.keys_eq_of_get? (h.get?_eq x now)

theorem lastVehicleEvent?_eq (now : Int) (seg : Segment α) (o : Observer)
    (kind : StopEventKind) :
    s'.lastVehicleEvent? now seg o kind = s.lastVehicleEvent? now seg o kind := by
  rw [lastVehicleEvent?, lastVehicleEvent?, h.rules.settings, h.stopDay?_eq]

/-- Statistics that are alike give the same answers. -/
theorem sameAnswers [Scalar α] : s.SameAnswers s' where
  mean? := h.mean?_eq
  segmentMean? now seg quantity time := by
    rw [segmentMean?, segmentMean?, h.mean?_eq, pathKey, pathKey, timeBucket, timeBucket,
      h.rules.settings]
  kalmanError? now seg := h.get?_eq .kalmanErrors now ⟨seg.trip.id, seg.index⟩
  pathEstimate? now k := h.get?_eq .pathEstimates now k
  predictedDwell? now k headway := by
    rw [DwellModels.predict?, DwellModels.predict?, h.rules.minSamples]
    exact congrArg (Option.bind · _) (h.get?_eq .dwellModels now k)
  run? := h.run?_eq
  stopDay? := h.stopDay?_eq
  departureAhead? now a o := by rw [departureAhead?, departureAhead?, h.stopDay?_eq]
  lastVehicleTravel? now seg o := by
    simp only [lastVehicleTravel?, h.lastVehicleEvent?_eq, h.run?_eq, h.rules.settings,
      runKey_eq_of_settings h.rules.settings]
  lastVehicleDwell? now seg o := by
    simp only [lastVehicleDwell?, h.lastVehicleEvent?_eq, h.run?_eq, h.rules.settings,
      runKey_eq_of_settings h.rules.settings]
  keys := h.keys_eq
  keyCounts now := by
    have hscheduleMeans : s'.scheduleMeans.keys now = _ := h.keys_eq .scheduleMeans now
    have hfrequencyMeans : s'.frequencyMeans.keys now = _ := h.keys_eq .frequencyMeans now
    have hkalmanErrors : s'.kalmanErrors.keys now = _ := h.keys_eq .kalmanErrors now
    have hruns : s'.runs.keys now = _ := h.keys_eq .runs now
    have hstops : s'.stops.keys now = _ := h.keys_eq .stops now
    have hpathEstimates : s'.pathEstimates.keys now = _ := h.keys_eq .pathEstimates now
    have hdwellModels : s'.dwellModels.keys now = _ := h.keys_eq .dwellModels now
    rw [keyCounts, hscheduleMeans, hfrequencyMeans, hkalmanErrors, hruns, hstops, hpathEstimates,
      hdwellModels]
    rfl
  stopHistory now stop := by rw [stopHistory, stopHistory, h.stopDay?_eq, h.rules.settings]
  tripHistory now selection := by
    have hkeys : s'.runs.keys now = s.runs.keys now := h.keys_eq .runs now
    have hruns : s'.run? now = s.run? now := funext (h.run?_eq now)
    rw [tripHistory, tripHistory, hkeys, hruns]

end Alike

end Statistics

end NextStop
