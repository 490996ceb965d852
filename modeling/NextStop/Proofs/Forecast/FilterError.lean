import Mathlib.Algebra.Field.Rat
import Mathlib.Tactic.FieldSimp
import Mathlib.Tactic.Linarith
import Mathlib.Tactic.Ring
import NextStop.Proofs.Scalar
import NextStop.Proofs.Statistics.Shelves

/-!
# The error of the filter

In exact arithmetic, an error `E` and a noise `R` that are not negative give the gain `E / (E + R)`
and leave the error `E * R / (E + R)`. Where both are positive, each measurement so adds `1 / R` to
the inverse of the error, and `n` of them leave `E * R / (R + n * E)`, `KalmanUpdate.errorLeft`: the
error falls towards zero and stays above it.

The statistics keep the error of a segment from one estimate to the next, and read it only where the
filter is asked there. Of all changes of the statistics, only the estimates on that segment that the
filter answers change what is kept: `Statistics.changeEach_errorLeft`.
-/

namespace NextStop

/-! ## One measurement -/

namespace KalmanUpdate

/-- An update weighs an expectation against a measurement, by a share of each, and does not make the
error larger. -/
structure Weighs (u : KalmanUpdate Rat) (prior error measurement : Rat) : Prop where
  gain_nonneg : 0 ≤ u.gain
  gain_le_one : u.gain ≤ 1
  min_le_estimate : min prior measurement ≤ u.estimate
  estimate_le_max : u.estimate ≤ max prior measurement
  error_nonneg : 0 ≤ u.error
  error_le : u.error ≤ error

end KalmanUpdate

section Update

variable {error noise : Rat}

/-- Without any error the gain is zero, which is what `error / (error + noise)` is then too. -/
theorem kalmanUpdate_eq (herror : 0 ≤ error) (hnoise : 0 ≤ noise) (prior measurement : Rat) :
    kalmanUpdate prior error measurement noise =
      ⟨error / (error + noise), prior + error / (error + noise) * (measurement - prior),
        error * noise / (error + noise)⟩ := by
  have hupdate : kalmanUpdate prior error measurement noise =
      let total := error + noise
      let gain := if 0 < total then Scalar.clamp 0 1 (error / total) else 0
      ⟨gain, prior + gain * (measurement - prior), (1 - gain) * error⟩ := by
    unfold kalmanUpdate
    rw [Scalar.positivePart_of_nonneg herror, Scalar.positivePart_of_nonneg hnoise]
  have hgain : (if 0 < error + noise then Scalar.clamp 0 1 (error / (error + noise)) else 0) =
      error / (error + noise) := by
    split
    · rename_i htotal
      apply Scalar.clamp_of_mem
      · positivity
      · rw [div_le_one htotal]
        linarith
    · rename_i htotal
      have hzero : error + noise = 0 := by linarith
      rw [hzero, div_zero]
  have hleft : (1 - error / (error + noise)) * error = error * noise / (error + noise) := by
    rcases (add_nonneg herror hnoise).eq_or_lt with htotal | htotal
    · have hzero : error = 0 := by linarith
      simp [hzero]
    · field_simp
      ring
  rw [hupdate]
  dsimp only
  rw [hgain, hleft]

theorem kalmanUpdate_weighs (herror : 0 ≤ error) (hnoise : 0 ≤ noise) (prior measurement : Rat) :
    (kalmanUpdate prior error measurement noise).Weighs prior error measurement := by
  have hgain : 0 ≤ error / (error + noise) := by positivity
  have hone : error / (error + noise) ≤ 1 := div_le_one_of_le₀ (by linarith) (by positivity)
  rw [kalmanUpdate_eq herror hnoise]
  refine ⟨hgain, hone, ?_, ?_, by positivity, ?_⟩
  · show min prior measurement ≤ prior + error / (error + noise) * (measurement - prior)
    rcases le_total prior measurement with h | h
    · rw [min_eq_left h]
      exact le_add_of_nonneg_right (mul_nonneg hgain (sub_nonneg.mpr h))
    · rw [min_eq_right h]
      have hpart := mul_le_mul_of_nonneg_right hone (sub_nonneg.mpr h)
      linarith
  · show prior + error / (error + noise) * (measurement - prior) ≤ max prior measurement
    rcases le_total prior measurement with h | h
    · rw [max_eq_right h]
      have hpart := mul_le_mul_of_nonneg_right hone (sub_nonneg.mpr h)
      linarith
    · rw [max_eq_left h]
      have hpart := mul_nonneg hgain (sub_nonneg.mpr h)
      linarith
  · show error * noise / (error + noise) ≤ error
    rw [mul_div_assoc]
    exact mul_le_of_le_one_right herror (div_le_one_of_le₀ (by linarith) (by positivity))

end Update

/-! ## Any number of measurements -/

namespace KalmanUpdate

/-- What a number of measurements with the same noise leave of an error. -/
def errorLeft (error noise : Rat) (n : Nat) : Rat :=
  if n = 0 then error else error * noise / (noise + n * error)

@[simp] theorem errorLeft_zero (error noise : Rat) : errorLeft error noise 0 = error := if_pos rfl

variable {error noise : Rat}

theorem errorLeft_nonneg (herror : 0 ≤ error) (hnoise : 0 ≤ noise) (n : Nat) :
    0 ≤ errorLeft error noise n := by
  unfold errorLeft
  split
  · exact herror
  · positivity

/-- One measurement more, whatever it is weighed against. -/
theorem error_errorLeft (herror : 0 ≤ error) (hnoise : 0 ≤ noise) (n : Nat)
    (prior measurement : Rat) :
    (kalmanUpdate prior (errorLeft error noise n) measurement noise).error =
      errorLeft error noise (n + 1) := by
  rw [kalmanUpdate_eq (errorLeft_nonneg herror hnoise n) hnoise]
  unfold errorLeft
  rw [if_neg n.succ_ne_zero]
  split
  · rename_i hn
    simp [hn, add_comm]
  · push_cast
    rcases hnoise.eq_or_lt with rfl | hpositive
    · simp
    · have hbefore : 0 < noise + n * error := by positivity
      have hafter : 0 < noise + (n + 1) * error := by positivity
      field_simp
      ring

theorem errorLeft_succ_le (herror : 0 ≤ error) (hnoise : 0 ≤ noise) (n : Nat) :
    errorLeft error noise (n + 1) ≤ errorLeft error noise n := by
  rw [← error_errorLeft herror hnoise n 0 0]
  exact (kalmanUpdate_weighs (errorLeft_nonneg herror hnoise n) hnoise 0 0).error_le

end KalmanUpdate

/-! ## What is kept for a segment -/

variable {α : Type}

/-- Where segments are the same, the same error is kept for them. -/
theorem Segment.same_iff {seg other : Segment α} : other.same seg = true ↔
    (⟨other.trip.id, other.index⟩ : SegmentKey) = ⟨seg.trip.id, seg.index⟩ := by
  simp [Segment.same]

namespace Statistics

/-- Whatever error of the filter is kept for a segment, it is the given one. -/
def KeepsOnly (s : Statistics α) (seg : Segment α) (error : α) : Prop :=
  s.kalmanErrors.AllEntries fun k kept => k = ⟨seg.trip.id, seg.index⟩ → kept = error

variable {s : Statistics α} {seg : Segment α} {error : α}

theorem keepsOnly_of_kalmanError? {now : Int} (h : s.kalmanError? now seg = some error) :
    s.KeepsOnly seg error := by
  obtain ⟨found, hfound, rfl⟩ := Option.map_eq_some_iff.mp h
  rintro k e he rfl
  have hsame : found = e := Option.some.inj ((Option.filter_eq_some_iff.mp hfound).1.symm.trans he)
  rw [hsame]

theorem KeepsOnly.kalmanError?_eq (h : s.KeepsOnly seg error) {now : Int}
    (hfound : (s.kalmanError? now seg).isSome) : s.kalmanError? now seg = some error := by
  obtain ⟨found, hfound⟩ := Option.isSome_iff_exists.mp hfound
  rw [hfound, h.of_get? hfound rfl]

theorem KeepsOnly.congr {s' : Statistics α} (h : s.KeepsOnly seg error)
    (hsame : s'.kalmanErrors = s.kalmanErrors) : s'.KeepsOnly seg error := by
  unfold KeepsOnly
  rw [hsame]
  exact h

variable [Scalar α]

/-- An error that is written over is forgotten. -/
theorem keepsOnly_putKalmanError (s : Statistics α) {other : Segment α} (h : other.same seg = true)
    (now : Int) (new : α) :
    (s.putKalmanError now other new).KeepsOnly seg (Scalar.positivePart new) := by
  have hany : s.kalmanErrors.AllEntries fun _ _ => True := fun _ _ _ => trivial
  refine hany.put (fun _ => rfl) (fun k kept hk _ hseg => absurd ?_ hk) now
  rw [hseg]
  exact Segment.same_iff.mp h

theorem KeepsOnly.putKalmanError (h : s.KeepsOnly seg error) {other : Segment α}
    (hother : other.same seg = false) (now : Int) (new : α) :
    (s.putKalmanError now other new).KeepsOnly seg error := by
  refine ExpiringCache.AllEntries.put h (fun hseg => ?_) (fun _ _ _ hkept => hkept) now
  rw [Segment.same_iff.mpr hseg] at hother
  contradiction

/-- Estimates on other segments keep their errors elsewhere. -/
theorem KeepsOnly.travel (h : s.KeepsOnly seg error) {other : Segment α}
    (hother : other.same seg = false) (now : Int) (c : Situation) (methods : List Method) :
    (Estimate.travel now other c methods s).2.KeepsOnly seg error := by
  rw [travel_eq_writeAll]
  generalize Estimate.errors now other c methods s = errors
  induction errors generalizing s with
  | nil => exact h
  | cons new rest ih => exact ih (h.putKalmanError hother now new)

theorem kalmanErrors_addToMean (s : Statistics α) (now : Int) (frequencyBased : Bool) (k : PathKey)
    (duration : Int) : (s.addToMean now frequencyBased k duration).kalmanErrors = s.kalmanErrors := by
  cases frequencyBased <;> rfl

theorem kalmanErrors_recordTravel (s : Statistics α) (now : Int) (log : EventLog)
    (arrival : StopEvent) : (s.recordTravel now log arrival).kalmanErrors = s.kalmanErrors := by
  unfold recordTravel
  split
  · rfl
  · dsimp only
    split
    · exact kalmanErrors_addToMean _ _ _ _ _
    · rfl

theorem kalmanErrors_recordDwell (s : Statistics α) (now : Int) (log : EventLog)
    (departure : StopEvent) (headway : Option Int) :
    (s.recordDwell now log departure headway).kalmanErrors = s.kalmanErrors := by
  unfold recordDwell
  split
  · rfl
  · dsimp only
    split
    · split <;> exact kalmanErrors_addToMean _ _ _ _ _
    · rfl

/-- Events leave the filter alone. -/
theorem kalmanErrors_put (s : Statistics α) (now : Int) (e : StopEvent) :
    (s.put now e).kalmanErrors = s.kalmanErrors := by
  unfold put
  dsimp only [pushStop]
  split
  · exact kalmanErrors_recordTravel _ _ _ _
  · exact kalmanErrors_recordDwell _ _ _ _ _

/-! ## Runs of changes -/

/-- Whether a change is the estimate of a travel time on a segment. -/
def Change.asks (seg : Segment α) : Change α → Bool
  | .travel other _ _ => other.same seg
  | .estimate _ => false
  | .event _ => false

/-- Whether a change is the estimate of a travel time on a segment that the filter answers. -/
def Change.answeredByFilter (s : Statistics α) (now : Int) (seg : Segment α) : Change α → Bool
  | .travel other c methods =>
    other.same seg && (Estimate.travel now other c methods s).1.method == .kalman
  | .estimate _ => false
  | .event _ => false

/-- The number of estimates on a segment that the filter answers. -/
def filterAnswers (seg : Segment α) : Statistics α → List (Int × Change α) → Nat
  | _, [] => 0
  | s, (now, c) :: rest =>
    (c.answeredByFilter s now seg).toNat + filterAnswers seg (s.change now c) rest

/-- Whenever the travel time on a segment is estimated, its error has not expired and has not been
pushed out. -/
def FindsError (seg : Segment α) : Statistics α → List (Int × Change α) → Prop
  | _, [] => True
  | s, (now, c) :: rest =>
    (c.asks seg = true → (s.kalmanError? now seg).isSome = true) ∧
      FindsError seg (s.change now c) rest

instance decidableFindsError (seg : Segment α) :
    (s : Statistics α) → (changes : List (Int × Change α)) → Decidable (FindsError seg s changes)
  | _, [] => .isTrue trivial
  | s, (now, c) :: rest =>
    have := decidableFindsError seg (s.change now c) rest
    inferInstanceAs (Decidable (_ ∧ _))

/-- Where an error is found, an estimate changes the statistics exactly if the filter answers, and
then by one update of that error. -/
theorem travel_of_kalmanError? {now : Int} (h : s.kalmanError? now seg = some error)
    (c : Situation) (methods : List Method) :
    let given := Estimate.travel now seg c methods s
    ((given.1.method == .kalman) = true ∧ ∃ prior measurement, given.2 = s.putKalmanError now seg
      (kalmanUpdate prior error measurement (s.settings.kalmanNoise * Scalar.ofNat 1000)).error) ∨
    ((given.1.method == .kalman) = false ∧ given.2 = s) := by
  induction methods with
  | nil => exact Or.inr ⟨rfl, rfl⟩
  | cons m rest ih =>
    cases m with
    | timetable => exact Or.inr ⟨rfl, rfl⟩
    | lastVehicle =>
      rw [Estimate.travel]
      cases s.lastVehicleTravel? now seg c.observer with
      | none => exact ih
      | some value => exact Or.inr ⟨rfl, rfl⟩
    | historicalAverage =>
      rw [Estimate.travel]
      cases Estimate.trustedMean? s now seg .travel c.observer.time with
      | none => exact ih
      | some mean => exact Or.inr ⟨rfl, rfl⟩
    | kalman =>
      rw [Estimate.travel, h]
      cases Estimate.trustedMean? s now seg .travel c.observer.time with
      | none => exact ih
      | some prior =>
        cases s.lastVehicleTravel? now seg c.observer with
        | none => exact ih
        | some measurement => exact Or.inl ⟨rfl, prior, measurement, rfl⟩
    | rls => exact ih

omit [Scalar α] in
theorem kalmanError?_of_same {other : Segment α} (h : other.same seg = true) (s : Statistics α)
    (now : Int) : s.kalmanError? now other = s.kalmanError? now seg := by
  unfold kalmanError?
  rw [Segment.same_iff.mp h]

section Exact

open KalmanUpdate

variable {s : Statistics Rat} {seg : Segment Rat} {error noise : Rat}

/-- A change that the filter answers takes the error that is kept one measurement further, and any
other change leaves it alone. -/
theorem KeepsOnly.change (herror : 0 ≤ error) (hnoise : 0 ≤ noise)
    (hsettings : s.settings.kalmanNoise * 1000 = noise) {n : Nat}
    (h : s.KeepsOnly seg (errorLeft error noise n)) {now : Int} {c : Change Rat}
    (hfound : c.asks seg = true → (s.kalmanError? now seg).isSome = true) :
    (s.change now c).KeepsOnly seg
      (errorLeft error noise (n + (c.answeredByFilter s now seg).toNat)) := by
  cases c with
  | travel other c methods =>
    cases hsame : other.same seg with
    | false =>
      have hskipped : (Change.travel other c methods).answeredByFilter s now seg = false := by
        simp [Change.answeredByFilter, hsame]
      rw [hskipped]
      exact h.travel hsame now c methods
    | true =>
      have hkept := h.kalmanError?_eq (hfound hsame)
      rw [← kalmanError?_of_same hsame] at hkept
      rcases travel_of_kalmanError? hkept c methods with
        ⟨hmethod, prior, measurement, hchange⟩ | ⟨hmethod, hchange⟩
      · have hcounted : (Change.travel other c methods).answeredByFilter s now seg = true := by
          simp [Change.answeredByFilter, hsame, hmethod]
        have hnew := error_errorLeft herror hnoise n prior measurement
        have hpart := Scalar.positivePart_of_nonneg (errorLeft_nonneg herror hnoise (n + 1))
        have hput := keepsOnly_putKalmanError s hsame now (errorLeft error noise (n + 1))
        rw [hpart, ← hnew, ← hsettings] at hput
        show (Estimate.travel now other c methods s).2.KeepsOnly seg _
        rw [hcounted, hchange, Bool.toNat_true, ← hnew, ← hsettings]
        exact hput
      · have hskipped : (Change.travel other c methods).answeredByFilter s now seg = false := by
          simp [Change.answeredByFilter, hmethod]
        show (Estimate.travel now other c methods s).2.KeepsOnly seg _
        rw [hskipped, hchange]
        exact h
  | estimate p => exact h
  | event ev => exact h.congr (kalmanErrors_put s now ev)

theorem KeepsOnly.changeEach (herror : 0 ≤ error) (hnoise : 0 ≤ noise)
    (hsettings : s.settings.kalmanNoise * 1000 = noise) {n : Nat}
    (h : s.KeepsOnly seg (errorLeft error noise n)) {changes : List (Int × Change Rat)}
    (hfound : FindsError seg s changes) :
    (s.changeEach changes).KeepsOnly seg
      (errorLeft error noise (n + filterAnswers seg s changes)) := by
  induction changes generalizing s n with
  | nil => exact h
  | cons p rest ih =>
    obtain ⟨now, c⟩ := p
    rw [filterAnswers, ← Nat.add_assoc]
    exact ih ((congrArg (·.kalmanNoise * 1000) (s.settings_change now c)).trans hsettings)
      (h.change herror hnoise hsettings hfound.1) hfound.2

/-- Whatever an error that is not negative is weighed with, the weights are shares, the estimate
lies between expectation and measurement, and no error is gained. And whatever changes the
statistics undergo from a time on at which that error is kept for a segment, at any readings of the
clock: as long as the error is found whenever it is asked for, what is kept in the end depends on
nothing but the number of estimates on the segment that the filter has answered. It falls with each
of them and is never negative. -/
theorem changeEach_errorLeft (herror : 0 ≤ error) (hnoise : 0 ≤ noise) :
    (∀ prior measurement,
      (kalmanUpdate prior error measurement noise).Weighs prior error measurement) ∧
    (∀ (s : Statistics Rat) (seg : Segment Rat) (changes : List (Int × Change Rat))
      (first last : Int), s.settings.kalmanNoise * 1000 = noise →
      s.kalmanError? first seg = some error → FindsError seg s changes →
      ((s.changeEach changes).kalmanError? last seg).isSome →
        (s.changeEach changes).kalmanError? last seg =
          some (errorLeft error noise (filterAnswers seg s changes))) ∧
    ∀ n, 0 ≤ errorLeft error noise n ∧
      errorLeft error noise (n + 1) ≤ errorLeft error noise n := by
  refine ⟨kalmanUpdate_weighs herror hnoise, ?_, ?_⟩
  · intro s seg changes first last hsettings hfirst hfound hlast
    have hstart : s.KeepsOnly seg (errorLeft error noise 0) := by
      rw [errorLeft_zero]
      exact keepsOnly_of_kalmanError? hfirst
    have hend := hstart.changeEach herror hnoise hsettings hfound
    rw [Nat.zero_add] at hend
    exact hend.kalmanError?_eq hlast
  · exact fun n => ⟨errorLeft_nonneg herror hnoise n, errorLeft_succ_le herror hnoise n⟩

/-- The error for the way to the market is 50 seconds, against a noise of 20. Twice the filter
answers; in between a further bus arrives, and the mean is asked for without the filter. -/
theorem changeEach_errorLeft_tram :
    let trip : Trip Rat := ⟨"line", "1", none, "block", "weekdays", false, 0,
      ["harbour", "market"].map fun stop => ⟨stop, 60000, 20000, 0, false, none⟩⟩
    let seg : Segment Rat := ⟨trip, 1⟩
    let passes (bus : VehicleId) (time travel : Int) : List StopEvent :=
      [("harbour", 0, time, .departure), ("market", 1, time + travel, .arrival)].map
        fun (stop, index, time, kind) => ⟨bus, "line", "1", none, "block", stop, index, time, kind,
          Date.ofDays 0, 0, false, none⟩
    let s := ((passes "first" 60000 40000 ++ passes "second" 160000 50000 ++
      passes "third" 260000 60000).foldl (fun s e => s.put 400000 e)
        (empty .standard)).putKalmanError 400000 seg 50000
    let asks (strategy : Strategy) : Change Rat :=
      .travel seg ⟨⟨"tram", Date.ofDays 0, 400000⟩, none⟩ strategy.methods
    let changes : List (Int × Change Rat) :=
      [(400000, asks .kalman)] ++ (passes "fourth" 340000 65000).map (fun e => (410000, .event e)) ++
        [(420000, asks .historicalAverage), (430000, asks .kalman)]
    s.kalmanError? 400000 seg = some 50000 ∧ FindsError seg s changes ∧
      filterAnswers seg s changes = 2 ∧
      (s.changeEach changes).kalmanError? 440000 seg = some (25000 / 3) := by
  intro trip seg passes s asks changes
  have hfirst : s.kalmanError? 400000 seg = some 50000 := by decide +kernel
  have hfound : FindsError seg s changes := by decide +kernel
  have hcount : filterAnswers seg s changes = 2 := by decide +kernel
  have hnoise : s.settings.kalmanNoise * 1000 = 20000 := by decide +kernel
  have hlast : ((s.changeEach changes).kalmanError? 440000 seg).isSome := by decide +kernel
  obtain ⟨-, hrun, -⟩ := changeEach_errorLeft (show (0 : Rat) ≤ 50000 by decide +kernel)
    (show (0 : Rat) ≤ 20000 by decide +kernel)
  have hend := hrun s seg changes 400000 440000 hnoise hfirst hfound hlast
  have hleft : errorLeft 50000 20000 2 = 25000 / 3 := by decide +kernel
  rw [hcount, hleft] at hend
  exact ⟨hfirst, hfound, hcount, hend⟩

end Exact

end Statistics

end NextStop
