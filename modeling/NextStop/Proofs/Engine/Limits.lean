import Mathlib.Data.List.Find
import NextStop.Engine.Cycle
import NextStop.Engine.Service
import NextStop.Engine.Sweep

/-!
# Configured limits

Limits are configured in seconds and have no bound, while times stop at the ends of the 64-bit
range. This does no harm: for times from 1970 on, every comparison with a time that was moved by a
limit comes out as if there were no ends, at the settings that are far beyond them too. The main
statement is `Engine.limits_exact`, with one field for every limit.

The only limit that is not compared as it stands is that for recorded predictions, where zero means
that there is none, `Engine.not_recorded_within_zero`.
-/

namespace NextStop

namespace Time

/-- A time from 1970 on, which fits into 64 bits. -/
def Counted (t : Int) : Prop := 0 ≤ t ∧ t ≤ latest
  deriving Decidable

theorem fits_saturate (t : Int) : Fits (saturate t) := ⟨le_saturate t, saturate_le t⟩

theorem counted_ofSeconds (secs : Nat) : Counted (Span.ofSeconds secs) :=
  ⟨Span.ofSeconds_nonneg secs, Int.min_le_right _ _⟩

theorem Counted.fits {t : Int} (ht : Counted t) : Fits t := by
  unfold Counted latest at ht
  unfold Fits earliest latest
  omega

theorem Counted.fits_sub {a b : Int} (ha : Counted a) (hb : Counted b) : Fits (a - b) := by
  unfold Counted latest at ha hb
  unfold Fits earliest latest
  omega

/-! ## Comparisons with a limit -/

/-- A time is past a limit after another one. -/
theorem Counted.later_lt_iff {t now : Int} (ht : Counted t) (hnow : Counted now) (secs : Nat) :
    later t (Span.ofSeconds secs) < now ↔ t + 1000 * (secs : Int) < now := by
  unfold Counted latest at ht hnow
  unfold later saturate Span.ofSeconds earliest latest
  omega

/-- A time is within a limit after another one. -/
theorem Counted.le_later_iff {t p : Int} (ht : Counted t) (hp : Counted p) (secs : Nat) :
    p ≤ later t (Span.ofSeconds secs) ↔ p ≤ t + 1000 * (secs : Int) := by
  have hpast := ht.later_lt_iff hp secs
  omega

/-- A time is within a limit before another one. -/
theorem Counted.sooner_le_iff {t p : Int} (ht : Counted t) (hp : Counted p) (secs : Nat) :
    sooner t (Span.ofSeconds secs) ≤ p ↔ t - 1000 * (secs : Int) ≤ p := by
  unfold Counted latest at ht hp
  unfold sooner saturate Span.ofSeconds earliest latest
  omega

/-- The span between two times is within a limit. -/
theorem Counted.sooner_le_ofSeconds_iff {now t : Int} (hnow : Counted now) (ht : Counted t)
    (secs : Nat) : sooner now t ≤ Span.ofSeconds secs ↔ now - t ≤ 1000 * (secs : Int) := by
  unfold Counted latest at hnow ht
  unfold sooner saturate Span.ofSeconds earliest latest
  omega

theorem Counted.le_ofSeconds_iff {d : Int} (hd : Counted d) (secs : Nat) :
    d ≤ Span.ofSeconds secs ↔ d ≤ 1000 * (secs : Int) := by
  unfold Counted latest at hd
  unfold Span.ofSeconds latest
  omega

end Time

open Time (Counted Fits)

/-- The spans that a cause of a timeout names fit into 64 bits. -/
def TimeoutCause.Fits : TimeoutCause → Prop
  | silent silence => Time.Fits silence
  | silentPastDeparture silence past => Time.Fits silence ∧ Time.Fits past
  | pastDeparture past => Time.Fits past

/-- The scheduled times on a vehicle's trip are times from 1970 on. -/
def Vehicle.DepartsCounted {α : Type} (v : Vehicle α) : Prop :=
  ∀ i departure, (v.trip.bind fun t => v.placement.bind fun p => t.scheduledTime? i p.serviceDay) =
    some departure → Counted departure

namespace Engine

variable {α : Type}

/-! ## The limits of predictions -/

section Predictions

variable {s : Settings α} {time now : Int} {p : Prediction}

theorem withinSeconds_iff (htime : Counted time) (hp : Counted p.time) (secs : Nat) :
    withinSeconds time secs p = true ↔ p.time ≤ time + 1000 * (secs : Int) := by
  rw [withinSeconds, decide_eq_true_eq, htime.le_later_iff hp]

theorem recordsPrediction_iff (htime : Counted time) (hp : Counted p.time) :
    recordsPrediction s time p = true ↔
      s.recordedHorizon = 0 ∨ p.time ≤ time + 1000 * (s.recordedHorizon : Int) := by
  rw [recordsPrediction, Bool.or_eq_true, beq_iff_eq, withinSeconds_iff htime hp]

theorem isFresh_iff (hnow : Counted now) (hp : Counted p.reportTime) :
    isFresh s now p = true ↔ now - p.reportTime ≤ 1000 * (s.predictionMaxAge : Int) := by
  rw [isFresh, decide_eq_true_eq, hnow.sooner_le_ofSeconds_iff hp]

/-- Of the predictions on the board, those are due that are neither too old nor too far ahead. -/
theorem predictionsDue_eq (e : Engine α) (hnow : Counted now)
    (hboard : ∀ p ∈ e.board.all, Counted p.time ∧ Counted p.reportTime) :
    e.predictionsDue now = e.board.all.filter fun p =>
      p.time ≤ now + 1000 * (e.settings.predictionHorizon : Int) ∧
        now - p.reportTime ≤ 1000 * (e.settings.predictionMaxAge : Int) := by
  refine List.filter_congr fun p hp => ?_
  obtain ⟨htime, hreport⟩ := hboard p hp
  rw [Bool.eq_iff_iff, Bool.and_eq_true, isFresh_iff hnow hreport, decide_eq_true_eq,
    hnow.le_later_iff htime, decide_eq_true_eq]

end Predictions

/-! ## The limits of a sweep -/

section Sweep

variable {s : Settings α} {v : Vehicle α} {t : Trip α} {p : Placement α} {last now : Int}

theorem isSilent_iff (hlast : Counted last) (hnow : Counted now) :
    isSilent s last now = true ↔ last + 1000 * (s.silenceLimit : Int) < now := by
  rw [isSilent, decide_eq_true_eq, hlast.later_lt_iff hnow]

theorem verdictScheduled_eq (ht : v.trip = some t) (hp : v.placement = some p) {departure : Int}
    (hstart : t.scheduledTime? 0 p.serviceDay = some departure) (hdeparture : Counted departure)
    (hnow : Counted now) :
    verdictScheduled s v now =
      if departure + 1000 * (s.scheduleGrace : Int) < now then
        .timeOut (.pastDeparture (now - departure))
      else .keep := by
  rw [verdictScheduled, ht, hp, Option.bind_some, Option.bind_some, hstart]
  simp only [hdeparture.later_lt_iff hnow]

/-- A verdict names no span that is out of range. -/
theorem fits_of_verdictScheduled (hdepartures : v.DepartsCounted) (hnow : Counted now)
    {cause : TimeoutCause} (h : verdictScheduled s v now = .timeOut cause) : cause.Fits := by
  unfold verdictScheduled at h
  split at h
  · contradiction
  · rename_i departure hdeparture
    split at h
    · obtain rfl := Verdict.timeOut.inj h
      exact hnow.fits_sub (hdepartures 0 departure hdeparture)
    · contradiction

variable [Scalar α]

theorem verdictSilent_eq (hwaits : v.atWaitStop = true) (ht : v.trip = some t)
    (hp : v.placement = some p) (htimetable : t.frequencyBased = false) {departure : Int}
    (hheld : heldUntil? s t p = some departure) (hdeparture : Counted departure)
    (hnow : Counted now) :
    verdictSilent s v last now =
      if departure + 1000 * (s.waitStopGrace : Int) < now then
        .timeOut (.silentPastDeparture (now - last) (now - departure))
      else .keep := by
  simp only [verdictSilent, hwaits, ht, hp, htimetable, hheld, hdeparture.later_lt_iff hnow]
  rfl

theorem fits_of_verdictSilent (hdepartures : v.DepartsCounted) (hlast : Counted last)
    (hnow : Counted now) {cause : TimeoutCause}
    (h : verdictSilent s v last now = .timeOut cause) : cause.Fits := by
  have hsilence := hnow.fits_sub hlast
  unfold verdictSilent at h
  split at h
  · obtain rfl := Verdict.timeOut.inj h
    exact hsilence
  · split at h
    · rename_i t p ht hp
      split at h
      · obtain rfl := Verdict.timeOut.inj h
        exact hsilence
      · split at h
        · contradiction
        · rename_i departure hheld
          obtain ⟨stop, -, hdeparture⟩ := Option.bind_eq_some_iff.mp hheld
          split at h
          · obtain rfl := Verdict.timeOut.inj h
            have hcounted : Counted departure := by
              refine hdepartures stop departure ?_
              rw [ht, hp]
              exact hdeparture
            exact ⟨hsilence, hnow.fits_sub hcounted⟩
          · contradiction
    · obtain rfl := Verdict.timeOut.inj h
      exact hsilence

theorem fits_of_verdict (hdepartures : v.DepartsCounted) (hlast : Counted last)
    (hnow : Counted now) {cause : TimeoutCause} (h : verdict s v last now = .timeOut cause) :
    cause.Fits := by
  unfold verdict at h
  split at h
  · unfold verdictIdle at h
    split at h
    · contradiction
    · split at h <;> contradiction
  · split at h
    · exact fits_of_verdictScheduled hdepartures hnow h
    · split at h
      · exact fits_of_verdictSilent hdepartures hlast hnow h
      · contradiction

end Sweep

end Engine

/-! ## The limits of observations -/

theorem Statistics.lastVehicleEvent?_eq {α : Type} (st : Statistics α) (now : Int)
    (seg : Segment α) {o : Observer} (kind : StopEventKind) (ho : Counted o.time)
    (hlog : ∀ log, st.stopDay? now ⟨seg.stop, o.serviceDate⟩ = some log →
      ∀ e ∈ log.newestFirst, Counted e.time) :
    st.lastVehicleEvent? now seg o kind =
      (st.stopDay? now ⟨seg.stop, o.serviceDate⟩).bind fun log =>
        log.latest? fun e =>
          e.time ≤ o.time &&
            o.time - 1000 * (st.settings.lastVehicleMaxAge : Int) ≤ e.time && e.kind == kind &&
            e.vehicle != o.vehicle && e.route == seg.trip.route &&
            e.direction == seg.trip.direction && e.index == seg.index := by
  rw [lastVehicleEvent?]
  cases hstop : st.stopDay? now ⟨seg.stop, o.serviceDate⟩ with
  | none => rfl
  | some log =>
    refine List.find?_congr fun e he => ?_
    simp only [ho.sooner_le_iff (hlog log hstop e he)]

namespace Settings

variable {α : Type} {s : Settings α} {d : Int}

theorem travelPlausible_iff (hd : Counted d) : s.travelPlausible d = true ↔
    Span.ofSeconds s.minTravel ≤ d ∧ d ≤ 1000 * (s.maxTravel : Int) := by
  rw [travelPlausible, Bool.and_eq_true, decide_eq_true_eq, decide_eq_true_eq,
    hd.le_ofSeconds_iff]

theorem dwellPlausible_iff (hd : Counted d) : s.dwellPlausible d = true ↔
    d ≤ 1000 * (s.maxDwell : Int) := by
  rw [dwellPlausible, Bool.and_eq_true, decide_eq_true_eq, decide_eq_true_eq,
    hd.le_ofSeconds_iff]
  exact and_iff_right hd.1

end Settings

namespace Engine

/-! ## All limits -/

/-- Every comparison with a configured limit comes out as that with as many seconds, for all times
from 1970 on. What is computed for it fits into 64 bits. -/
structure LimitsExact {α : Type} [Scalar α] (s : Settings α) : Prop where
  silence : ∀ last now, Counted last → Counted now →
    (isSilent s last now = true ↔ last + 1000 * (s.silenceLimit : Int) < now)
  scheduleGrace : ∀ (v : Vehicle α) t p departure now, v.trip = some t → v.placement = some p →
    t.scheduledTime? 0 p.serviceDay = some departure → Counted departure → Counted now →
      verdictScheduled s v now =
        if departure + 1000 * (s.scheduleGrace : Int) < now then
          .timeOut (.pastDeparture (now - departure))
        else .keep
  waitStopGrace : ∀ (v : Vehicle α) t p departure last now, v.atWaitStop = true →
    v.trip = some t → v.placement = some p → t.frequencyBased = false →
    heldUntil? s t p = some departure → Counted departure → Counted now →
      verdictSilent s v last now =
        if departure + 1000 * (s.waitStopGrace : Int) < now then
          .timeOut (.silentPastDeparture (now - last) (now - departure))
        else .keep
  horizon : ∀ time (p : Prediction), Counted time → Counted p.time →
    (withinSeconds time s.predictionHorizon p = true ↔
      p.time ≤ time + 1000 * (s.predictionHorizon : Int))
  /-- Zero is no limit. -/
  recorded : ∀ time (p : Prediction), Counted time → Counted p.time →
    (recordsPrediction s time p = true ↔
      s.recordedHorizon = 0 ∨ p.time ≤ time + 1000 * (s.recordedHorizon : Int))
  age : ∀ now (p : Prediction), Counted now → Counted p.reportTime →
    (isFresh s now p = true ↔ now - p.reportTime ≤ 1000 * (s.predictionMaxAge : Int))
  due : ∀ (e : Engine α) now, e.settings = s → Counted now →
    (∀ p ∈ e.board.all, Counted p.time ∧ Counted p.reportTime) →
      e.predictionsDue now = e.board.all.filter fun p =>
        p.time ≤ now + 1000 * (s.predictionHorizon : Int) ∧
          now - p.reportTime ≤ 1000 * (s.predictionMaxAge : Int)
  lastVehicle : ∀ (st : Statistics α) now seg o kind, st.settings = s → Counted o.time →
    (∀ log, st.stopDay? now ⟨seg.stop, o.serviceDate⟩ = some log →
      ∀ e ∈ log.newestFirst, Counted e.time) →
      st.lastVehicleEvent? now seg o kind =
        (st.stopDay? now ⟨seg.stop, o.serviceDate⟩).bind fun log =>
          log.latest? fun e =>
            e.time ≤ o.time && o.time - 1000 * (s.lastVehicleMaxAge : Int) ≤ e.time &&
              e.kind == kind && e.vehicle != o.vehicle && e.route == seg.trip.route &&
              e.direction == seg.trip.direction && e.index == seg.index
  longestTravel : ∀ d, Counted d → (s.travelPlausible d = true ↔
    Span.ofSeconds s.minTravel ≤ d ∧ d ≤ 1000 * (s.maxTravel : Int))
  longestDwell : ∀ d, Counted d → (s.dwellPlausible d = true ↔ d ≤ 1000 * (s.maxDwell : Int))
  fits : (∀ secs, Fits (Span.ofSeconds secs)) ∧
    ∀ t d, Fits (Time.later t d) ∧ Fits (Time.sooner t d)
  causes : ∀ (v : Vehicle α) last now cause, v.DepartsCounted → Counted last → Counted now →
    verdict s v last now = .timeOut cause → cause.Fits

/-- Whatever the limits are, even far beyond the range of times, they are kept to exactly. -/
theorem limits_exact {α : Type} [Scalar α] (s : Settings α) : LimitsExact s where
  silence _ _ hlast hnow := isSilent_iff hlast hnow
  scheduleGrace _ _ _ _ _ ht hp hstart hdeparture hnow :=
    verdictScheduled_eq ht hp hstart hdeparture hnow
  waitStopGrace _ _ _ _ _ _ hwaits ht hp htimetable hheld hdeparture hnow :=
    verdictSilent_eq hwaits ht hp htimetable hheld hdeparture hnow
  horizon _ _ htime hp := withinSeconds_iff htime hp _
  recorded _ _ htime hp := recordsPrediction_iff htime hp
  age _ _ hnow hp := isFresh_iff hnow hp
  due e _ he hnow hboard := by
    subst he
    exact predictionsDue_eq e hnow hboard
  lastVehicle st now seg _ kind hst ho hlog := by
    subst hst
    exact st.lastVehicleEvent?_eq now seg kind ho hlog
  longestTravel _ hd := Settings.travelPlausible_iff hd
  longestDwell _ hd := Settings.dwellPlausible_iff hd
  fits := ⟨fun secs => (Time.counted_ofSeconds secs).fits,
    fun _ _ => ⟨Time.fits_saturate _, Time.fits_saturate _⟩⟩
  causes _ _ _ _ hdepartures hlast hnow h := fits_of_verdict hdepartures hlast hnow h

/-- The greatest silence limit that a time can be past, at the millisecond when it is, and the
greatest limit of 64 bits, which no time is past. -/
theorem limits_exact_ends :
    let s (secs : Nat) : Settings Rat := { Settings.standard with silenceLimit := secs }
    Counted 806 ∧ Counted 807 ∧ Counted Time.latest ∧
      isSilent (s 9223372036854775) 806 Time.latest = true ∧
      isSilent (s 9223372036854775) 807 Time.latest = false ∧
      isSilent (s 18446744073709551615) 0 Time.latest = false := by
  intro s
  have hfirst : Counted 0 := by decide
  have hsix : Counted 806 := by decide
  have hseven : Counted 807 := by decide
  have hlast : Counted Time.latest := by decide
  have silence (secs : Nat) := (limits_exact (s secs)).silence
  refine ⟨hsix, hseven, hlast, ?_, ?_, ?_⟩
  · exact (silence _ _ _ hsix hlast).mpr (by decide)
  · exact Bool.eq_false_iff.mpr (mt (silence _ _ _ hseven hlast).mp (by decide))
  · exact Bool.eq_false_iff.mpr (mt (silence _ _ _ hfirst hlast).mp (by decide))

/-- A limit of zero seconds for recorded predictions is not kept to: a prediction goes on record
that is for a later time than its report. -/
theorem not_recorded_within_zero :
    ¬∀ (s : Settings Rat) (time : Int) (p : Prediction), Counted time → Counted p.time →
      (recordsPrediction s time p = true ↔
        p.time ≤ time + 1000 * (s.recordedHorizon : Int)) := by
  intro h
  have hafter := h { Settings.standard with recordedHorizon := 0 } 0
    ⟨"bus", "1", "line", "market", 0, 60000, 0, 0, .arrival, false⟩ (by decide) (by decide)
  have hrecorded := hafter.mp (by decide)
  contradiction

end Engine

end NextStop
