import NextStop.Forecast.Estimate
import NextStop.Proofs.Statistics.Histories

/-!
# Changes of the statistics

Apart from a warm start, the statistics of an engine change in three ways: an estimate of a travel
time keeps the error of the filter, an estimate for a stop path is kept, and an arrival or
departure is fed in. A `Statistics.Change` is one of these. What a report does to the statistics
is a list of changes, so that what each single change leaves alone is left alone by the report.
-/

namespace NextStop

/-- An estimate keeps an error of the filter at most. -/
theorem Estimate.travel_same {α : Type} [Scalar α] (now : Int) (seg : Segment α) (c : Situation)
    (methods : List Method) (s : Statistics α) :
    s.SameHistories (Estimate.travel now seg c methods s).2 := by
  induction methods generalizing s with
  | nil => exact .refl s
  | cons m rest ih =>
    cases m with
    | timetable => exact .refl s
    | lastVehicle =>
      rw [Estimate.travel]
      split
      · exact .refl s
      · exact ih s
    | historicalAverage =>
      rw [Estimate.travel]
      split
      · exact .refl s
      · exact ih s
    | kalman =>
      rw [Estimate.travel]
      split
      · have hkept : s.SameHistories
            (s.putKalmanError now seg (s.settings.kalmanInitialError * Scalar.ofNat 1000)) :=
          ⟨rfl, rfl, rfl⟩
        exact hkept.trans (ih _)
      · split
        · exact ⟨rfl, rfl, rfl⟩
        · exact ih s
    | rls => exact ih s

namespace Statistics

variable {α : Type}

/-- A change of the statistics. -/
inductive Change (α : Type) where
  /-- The travel time on a segment is estimated by a chain of methods. -/
  | travel (seg : Segment α) (c : Situation) (methods : List Method)
  /-- An estimate for a stop path is kept. -/
  | estimate (p : PathEstimate)
  /-- An arrival or departure is fed in. -/
  | event (ev : StopEvent)

variable [Scalar α]

/-- The statistics after a change. -/
def change (s : Statistics α) (now : Int) : Change α → Statistics α
  | .travel seg c methods => (Estimate.travel now seg c methods s).2
  | .estimate p => s.putPathEstimate now p
  | .event ev => s.put now ev

/-- The statistics after a run of changes. -/
def changeAll (s : Statistics α) (now : Int) (changes : List (Change α)) : Statistics α :=
  changes.foldl (fun s c => s.change now c) s

/-- The statistics after changes, each at a reading of the clock. -/
def changeEach (s : Statistics α) (changes : List (Int × Change α)) : Statistics α :=
  changes.foldl (fun s p => s.change p.1 p.2) s

theorem changeAll_append (s : Statistics α) (now : Int) (cs ds : List (Change α)) :
    s.changeAll now (cs ++ ds) = (s.changeAll now cs).changeAll now ds :=
  List.foldl_append

theorem settings_change (s : Statistics α) (now : Int) (c : Change α) :
    (s.change now c).settings = s.settings := by
  cases c with
  | travel seg c methods => exact (Estimate.travel_same now seg c methods s).settings
  | estimate p => rfl
  | event ev => exact (s.put_same now ev).settings

theorem settings_changeAll (s : Statistics α) (now : Int) (cs : List (Change α)) :
    (s.changeAll now cs).settings = s.settings := by
  induction cs generalizing s with
  | nil => rfl
  | cons c rest ih => exact (ih (s.change now c)).trans (s.settings_change now c)

theorem changeAll_events (s : Statistics α) (now : Int) (events : List StopEvent) :
    s.changeAll now (events.map .event) = s.feed now events :=
  List.foldl_map

/-- Only arrivals and departures enter the histories. -/
theorem changeAll_same {cs : List (Change α)} (h : ∀ ev, .event ev ∉ cs) (s : Statistics α)
    (now : Int) : s.SameHistories (s.changeAll now cs) := by
  induction cs generalizing s with
  | nil => exact .refl s
  | cons c rest ih =>
    have hrest := ih (fun ev hev => h ev (List.mem_cons_of_mem _ hev)) (s.change now c)
    cases c with
    | travel seg situation methods =>
      exact (Estimate.travel_same now seg situation methods s).trans hrest
    | estimate p =>
      have hkept : s.SameHistories (s.putPathEstimate now p) := ⟨rfl, rfl, rfl⟩
      exact hkept.trans hrest
    | event ev => exact absurd List.mem_cons_self (h ev)

end Statistics

end NextStop
