import NextStop.Forecast.Walk
import NextStop.Proofs.Statistics.Changes

/-!
# The way of a forecast

A forecast travels the stop paths from the first stop that its vehicle has not been at to the end
of the trip, `Forecast.way`. All it does to the statistics is to estimate the travel times on
these, `Forecast.run_statistics`. What it gives is about its outset and nothing else: every
prediction is for that vehicle and trip and comes from that report, `Forecast.run_about`.
-/

namespace NextStop

namespace Forecast

variable {α : Type} [Scalar α]

/-! ## The stop paths on the way -/

/-- The numbers of the stop paths that a forecast travels. -/
def way (s : Settings α) (o : Outset α) : List Nat :=
  ahead o.trip (o.placement.ahead o.trip s.defaultRadius)

/-- The changes of the statistics by travel times on stop paths of the trip. -/
def travels (methods : List Method) (o : Outset α) (c : Situation) (indices : List Nat) :
    List (Statistics.Change α) :=
  indices.map fun index => .travel ⟨o.trip, index⟩ c methods

omit [Scalar α] in
theorem mem_ahead_iff (trip : Trip α) (first i : Nat) :
    i ∈ ahead trip first ↔ first ≤ i ∧ i < trip.stopPaths.length := by
  rw [ahead, List.mem_range'_1]
  omega

omit [Scalar α] in
theorem ahead_of_le (trip : Trip α) {first : Nat} (h : trip.stopPaths.length ≤ first) :
    ahead trip first = [] := by
  rw [ahead, Nat.sub_eq_zero_of_le h, List.range'_zero]

omit [Scalar α] in
theorem ahead_of_lt (trip : Trip α) {first : Nat} (h : first < trip.stopPaths.length) :
    ahead trip first = first :: ahead trip (first + 1) := by
  have hlength : trip.stopPaths.length - first = trip.stopPaths.length - (first + 1) + 1 := by
    omega
  rw [ahead, hlength, List.range'_succ, ahead]

omit [Scalar α] in
/-- The stop paths ahead of some stop, from the first of them on. -/
theorem ahead_induction {t : Trip α} {P : Nat → List Nat → Prop}
    (hend : ∀ first, t.stopPaths.length ≤ first → P first [])
    (hstep : ∀ first, first < t.stopPaths.length → P (first + 1) (ahead t (first + 1)) →
      P first (first :: ahead t (first + 1))) (first : Nat) : P first (ahead t first) := by
  induction hn : t.stopPaths.length - first generalizing first with
  | zero =>
    rw [ahead_of_le t (by omega)]
    exact hend first (by omega)
  | succ n ih =>
    rw [ahead_of_lt t (by omega)]
    exact hstep first (by omega) (ih (first + 1) (by omega))

omit [Scalar α] in
theorem situation_eq_of_settings {s s' : Statistics α} (h : s'.settings = s.settings)
    (o : Outset α) : situation s' o = situation s o := by
  rw [situation, situation, h]

/-! ## What becomes of the statistics -/

theorem walk_statistics (methods : List Method) (o : Outset α) (now : Int) (first : Nat)
    (time : Int) (remaining : α) (s : Statistics α) :
    (walk methods o now (ahead o.trip first) time remaining s).2 =
      s.changeAll now (travels methods o (situation s o) (ahead o.trip first)) := by
  induction first using ahead_induction (t := o.trip) generalizing time remaining s with
  | hend first hle => rfl
  | hstep first hlt ih =>
    have hsettings : (Estimate.travel now ⟨o.trip, first⟩ (situation s o) methods s).2.settings =
        s.settings := (Estimate.travel_same _ _ _ _ s).settings
    rw [walk]
    dsimp only
    split
    · rename_i hlast
      rw [Trip.isLast, decide_eq_true_eq] at hlast
      rw [ahead_of_le _ hlast]
      rfl
    · rw [ih, situation_eq_of_settings hsettings]
      rfl

/-- A forecast estimates the travel times on its way, and changes nothing else. -/
theorem run_statistics (s : Statistics α) (strategy : Strategy) (now : Int) (o : Outset α) :
    (run s strategy now o).2 =
      s.changeAll now (travels strategy.methods o (situation s o) (way s.settings o)) := by
  cases hstop : o.placement.atStop? o.trip s.settings.defaultRadius with
  | none =>
    simp only [run, way, Placement.ahead, hstop]
    exact walk_statistics _ _ _ _ _ _ _
  | some stop =>
    simp only [run, way, Placement.ahead, hstop]
    split
    · rename_i hlast
      rw [Trip.isLast, decide_eq_true_eq] at hlast
      rw [ahead_of_le _ hlast]
      rfl
    · exact walk_statistics _ _ _ _ _ _ _

/-! ## What a forecast is about -/

/-- Every prediction is for the vehicle and trip of the outset and comes from its report, and every
estimate is for the vehicle and a stop path of that trip. -/
structure About (o : Outset α) (f : Forecast) : Prop where
  predictions : ∀ p ∈ f.predictions,
    p.vehicle = o.vehicle ∧ p.trip = o.trip.id ∧ p.reportTime = o.time
  estimates : ∀ p ∈ f.estimates, p.vehicle = o.vehicle ∧ p.trip = o.trip.id

omit [Scalar α] in
theorem about_empty (o : Outset α) : empty.About o := ⟨by simp [empty], by simp [empty]⟩

omit [Scalar α] in
theorem About.append {o : Outset α} {f g : Forecast} (hf : f.About o) (hg : g.About o) :
    (f ++ g).About o where
  predictions p hp := (List.mem_append.mp hp).elim (hf.predictions p) (hg.predictions p)
  estimates p hp := (List.mem_append.mp hp).elim (hf.estimates p) (hg.estimates p)

omit [Scalar α] in
/-- The estimate for one stop path, and what is predicted by it. -/
theorem about_estimate (o : Outset α) (now : Int) (index : Nat) (quantity : Quantity)
    (e : Estimate) {predictions : List Prediction}
    (h : ∀ p ∈ predictions, ∃ kind time, p = predictionAt o now index kind time) :
    About o ⟨predictions, [estimateRecord o now index quantity e]⟩ where
  predictions p hp := by
    obtain ⟨kind, time, rfl⟩ := h p hp
    exact ⟨rfl, rfl, rfl⟩
  estimates p hp := by
    obtain rfl := List.mem_singleton.mp hp
    exact ⟨rfl, rfl⟩

theorem depart_about (s : Statistics α) (methods : List Method) (o : Outset α) (now : Int)
    (index : Nat) (arrival : Int) : (depart s methods o now index arrival).1.About o := by
  rw [depart]
  dsimp only
  split
  · exact about_estimate o now index .dwell _ fun p hp => ⟨_, _, List.mem_singleton.mp hp⟩
  · exact about_estimate o now index .dwell _ fun p hp => by contradiction

theorem walk_about (methods : List Method) (o : Outset α) (now : Int) (indices : List Nat)
    (time : Int) (remaining : α) (s : Statistics α) :
    (walk methods o now indices time remaining s).1.About o := by
  induction indices generalizing time remaining s with
  | nil => exact about_empty o
  | cons index rest ih =>
    rw [walk]
    dsimp only
    split
    · exact about_estimate o now index .travel _ fun p hp => ⟨_, _, List.mem_singleton.mp hp⟩
    · refine (about_estimate o now index .travel _ fun p hp => ?_).append
        ((depart_about _ _ _ _ _ _).append (ih _ _ _))
      exact ⟨_, _, List.mem_singleton.mp hp⟩

theorem run_about (s : Statistics α) (strategy : Strategy) (now : Int) (o : Outset α) :
    (run s strategy now o).1.About o := by
  rw [run]
  dsimp only
  split
  · split
    · exact about_empty o
    · exact (depart_about _ _ _ _ _ _).append (walk_about _ _ _ _ _ _ _)
  · exact walk_about _ _ _ _ _ _ _

end Forecast

end NextStop
