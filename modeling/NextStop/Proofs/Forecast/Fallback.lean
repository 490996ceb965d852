import NextStop.Forecast.Walk

/-!
# When the dwell model has no say

The strategy with the dwell model asks the methods of the Kalman filter, with the model in front.
The model leaves travel times to the others, and refines dwell times only for service at intervals
with a known headway. In all other cases the two chains of methods are `Estimate.Alike`: they give
the same estimates and keep the same errors of the filter. A forecast asks its methods on a single
trip and with a single headway, so that chains alike there make the same forecast and leave the
same statistics, `Forecast.run_of_alike`.
-/

namespace NextStop

variable {α : Type} [Scalar α]

namespace Estimate

/-- Two chains of methods that answer all questions about a trip and headway with the same
estimates, and that do the same to the statistics meanwhile. -/
structure Alike (t : Trip α) (headway : Option Int) (methods methods' : List Method) : Prop where
  travel : ∀ now index observer s,
    travel now ⟨t, index⟩ ⟨observer, headway⟩ methods s =
      travel now ⟨t, index⟩ ⟨observer, headway⟩ methods' s
  dwell : ∀ now index observer s,
    dwell now ⟨t, index⟩ ⟨observer, headway⟩ s methods =
      dwell now ⟨t, index⟩ ⟨observer, headway⟩ s methods'

/-- The dwell model in front of a chain hands on whatever it is asked, unless the trip is run at
intervals and the headway is known. -/
theorem alike_rls {t : Trip α} {headway : Option Int}
    (h : t.frequencyBased = false ∨ headway = none) (rest : List Method) :
    Alike t headway (.rls :: rest) rest where
  travel now index observer s := rfl
  dwell now index observer s := by
    rw [dwell]
    split
    · rfl
    · rename_i hasked
      -- the model is only asked on service at intervals, so that there is no headway here
      obtain rfl : headway = none := h.resolve_left fun htimetable => hasked (by simp [htimetable])
      rfl

end Estimate

namespace Forecast

variable {o : Outset α} {methods methods' : List Method}

theorem depart_of_alike (h : Estimate.Alike o.trip o.headway methods methods') (s : Statistics α)
    (now : Int) (index : Nat) (arrival : Int) :
    depart s methods o now index arrival = depart s methods' o now index arrival := by
  unfold depart
  rw [situation, h.dwell]

theorem walk_of_alike (h : Estimate.Alike o.trip o.headway methods methods') (now : Int)
    (indices : List Nat) (time : Int) (remaining : α) (s : Statistics α) :
    walk methods o now indices time remaining s = walk methods' o now indices time remaining s := by
  induction indices generalizing time remaining s with
  | nil => rfl
  | cons index rest ih => simp only [walk, situation, h.travel, depart_of_alike h, ih]

/-- Strategies whose methods are alike for a trip and headway make the same forecasts there, from
the same estimates, and leave the same statistics. -/
theorem run_of_alike {strategy strategy' : Strategy}
    (h : Estimate.Alike o.trip o.headway strategy.methods strategy'.methods) (s : Statistics α)
    (now : Int) : run s strategy now o = run s strategy' now o := by
  unfold run
  simp only [depart_of_alike h, walk_of_alike h]

/-- On a trip with a timetable, and as long as no headway is known, the strategy with the dwell
model predicts what the filter does, by the same methods, and keeps the same errors of the filter:
there the model might as well not be there. -/
theorem run_rlsDwell (s : Statistics α) (now : Int) (o : Outset α)
    (h : o.trip.frequencyBased = false ∨ o.headway = none) :
    run s .rlsDwell now o = run s .kalman now o :=
  run_of_alike (Estimate.alike_rls h Strategy.kalman.methods) s now

/-- A tram is about to leave for the market and the castle by the timetable, ten minutes behind the
vehicle ahead. The filter has kept an error for the way to the market and answers there; it gets to
know the way to the castle. Both strategies forecast from the same four estimates. -/
theorem run_rlsDwell_tram :
    let trip : Trip Rat := ⟨"line", "1", none, "block", "weekdays", false, 0,
      ["harbour", "market", "castle"].map fun stop => ⟨stop, 60000, 20000, 0, false, none⟩⟩
    let passes (bus : VehicleId) (time travel : Int) : List StopEvent :=
      [("harbour", 0, time, .departure), ("market", 1, time + travel, .arrival),
        ("market", 1, time + travel + 15000, .departure),
        ("castle", 2, time + 2 * travel, .arrival)].map fun (stop, index, time, kind) =>
          ⟨bus, "line", "1", none, "block", stop, index, time, kind, Date.ofDays 0, 0, false, none⟩
    let s := ((passes "first" 60000 40000 ++ passes "second" 160000 50000 ++
      passes "third" 260000 60000).foldl (fun s e => s.put 400000 e)
        (Statistics.empty .standard)).putKalmanError 400000 ⟨trip, 1⟩ 50000
    let o : Outset Rat :=
      ⟨"tram", trip, ⟨"line", "block", 0, 0, 500, 500⟩, 400000, some 600000, false⟩
    let given := run s .rlsDwell 400000 o
    given = run s .kalman 400000 o ∧
      given.1.predictions.map (·.time) = [477143, 527143] ∧
      given.1.estimates.map (·.method) =
        [.timetable, .kalman, .historicalAverage, .historicalAverage] ∧
      given.2.kalmanError? 400000 ⟨trip, 1⟩ = some (100000 / 7) ∧
      given.2.kalmanError? 400000 ⟨trip, 2⟩ = some 50000 := by
  intro trip passes s o given
  have hsame : given = run s .kalman 400000 o := run_rlsDwell s 400000 o (Or.inl rfl)
  exact ⟨hsame, by decide +kernel, by decide +kernel, by decide +kernel, by decide +kernel⟩

end Forecast

end NextStop
