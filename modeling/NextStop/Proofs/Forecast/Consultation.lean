import NextStop.Proofs.Statistics.Samples

/-!
# Which method answers

A strategy asks its methods in turn for a travel or dwell time, and the first one that has the data
answers. `Method.HasData` says which data each method needs, and `Method.Gives` what it makes of
them. Estimates are written as a recursion that hands the question on, once in each method, and the
filter even changes the statistics before it does so; `Estimate.changeEach_answered` says that
nevertheless the statistics as they are asked decide who answers, and what.
-/

namespace NextStop

/-! ## The data of the methods -/

namespace Statistics

variable {α : Type}

/-- A mean is there with as many samples behind it as the settings ask for. -/
def EnoughSamples (s : Statistics α) (now : Int) (seg : Segment α) (q : Quantity) (time : Int) :
    Prop :=
  ∃ m, s.segmentMean? now seg q time = some m ∧ s.settings.minSamples ≤ m.count

/-- The travel or dwell time of the most recent other vehicle. -/
def lastVehicle? (s : Statistics α) (now : Int) (seg : Segment α) (o : Observer) :
    Quantity → Option Int
  | .travel => s.lastVehicleTravel? now seg o
  | .dwell => s.lastVehicleDwell? now seg o

variable [Scalar α]

/-- The dwell model for the stop of a segment of service at intervals. -/
def dwellModel? (s : Statistics α) (now : Int) (seg : Segment α) (time : Int) :
    Option (DwellModel α) :=
  s.dwellModels.cache.get? now (s.pathKey .dwell seg.trip.id seg.index true time)

end Statistics

variable {α : Type} [Scalar α]

/-- Whether a method has the data to give a travel or dwell time, `rest` being the methods after
it. -/
def Method.HasData (s : Statistics α) (now : Int) (seg : Segment α) (c : Situation)
    (rest : List Method) : Quantity → Method → Prop
  | _, .timetable => True
  | q, .lastVehicle => (s.lastVehicle? now seg c.observer q).isSome
  | q, .historicalAverage => s.EnoughSamples now seg q c.observer.time
  | .travel, .kalman =>
    (s.kalmanError? now seg).isSome ∧ s.EnoughSamples now seg .travel c.observer.time ∧
      (s.lastVehicle? now seg c.observer .travel).isSome
  | .dwell, .kalman => False
  | .travel, .rls => False
  | .dwell, .rls =>
    seg.trip.frequencyBased ∧ 0 < (Estimate.dwell now seg c s rest).value ∧
      ∃ gap model, c.headway = some gap ∧ s.dwellModel? now seg c.observer.time = some model ∧
        s.settings.dwellModelMinSamples ≤ model.samples ∧
        Scalar.isFinite (model.predict (DwellModels.seconds gap))

/-- The travel or dwell time that a method gives, if it has the data. -/
def Method.Gives (s : Statistics α) (now : Int) (seg : Segment α) (c : Situation) (value : Int) :
    Quantity → Method → Prop
  | q, .timetable => value = (Estimate.timetable seg q).value
  | q, .lastVehicle => s.lastVehicle? now seg c.observer q = some value
  | q, .historicalAverage =>
    ∃ m, s.segmentMean? now seg q c.observer.time = some m ∧ value = Scalar.round m.mean
  | .travel, .kalman =>
    ∃ error m measurement, s.kalmanError? now seg = some error ∧
      s.segmentMean? now seg .travel c.observer.time = some m ∧
      s.lastVehicle? now seg c.observer .travel = some measurement ∧
      value = max (Scalar.round (kalmanUpdate m.mean error (measurement : α)
        (s.settings.kalmanNoise * Scalar.ofNat 1000)).estimate) 0
  | .dwell, .rls =>
    ∃ gap model, c.headway = some gap ∧ s.dwellModel? now seg c.observer.time = some model ∧
      value = max (Scalar.round (model.predict (DwellModels.seconds gap) * Scalar.ofNat 1000)) 0
  | .dwell, .kalman => False
  | .travel, .rls => False

namespace Estimate

/-- An estimate comes from the first method of a chain that has the data. -/
inductive Answered (s : Statistics α) (now : Int) (seg : Segment α) (c : Situation)
    (q : Quantity) : List Method → Estimate → Prop
  | here {m : Method} {rest : List Method} {value : Int} :
      m.HasData s now seg c rest q → m.Gives s now seg c value q →
        Answered s now seg c q (m :: rest) ⟨value, m⟩
  | later {m : Method} {rest : List Method} {e : Estimate} :
      ¬m.HasData s now seg c rest q → Answered s now seg c q rest e →
        Answered s now seg c q (m :: rest) e

variable {s : Statistics α} {now : Int} {seg : Segment α} {c : Situation} {q : Quantity}

/-- The method that answers has the data for what it gives. -/
theorem Answered.hasData {methods : List Method} {e : Estimate}
    (h : Answered s now seg c q methods e) :
    ∃ rest, e.method.HasData s now seg c rest q ∧ e.method.Gives s now seg c e.value q := by
  induction h with
  | here hdata hgives => exact ⟨_, hdata, hgives⟩
  | later _ _ ih => exact ih

/-! ## Last vehicles and means -/

theorem answered_lastVehicle {rest : List Method} {value : Int}
    (hlast : s.lastVehicle? now seg c.observer q = some value) :
    Answered s now seg c q (.lastVehicle :: rest) ⟨value, .lastVehicle⟩ :=
  .here (Option.isSome_of_eq_some hlast) hlast

theorem Answered.without_lastVehicle {rest : List Method} {e : Estimate}
    (h : Answered s now seg c q rest e)
    (hnone : s.lastVehicle? now seg c.observer q = none) :
    Answered s now seg c q (.lastVehicle :: rest) e :=
  .later (by simp [Method.HasData, hnone]) h

omit [Scalar α] in
/-- As no mean is without samples, one that is not trusted has too few. -/
theorem not_enoughSamples (hmeans : s.AllMeans fun m => 0 < m.count) {time : Int}
    (hnone : trustedMean? s now seg q time = none) : ¬s.EnoughSamples now seg q time := by
  rintro ⟨m, hm, hcount⟩
  have hsome := trustedMean?_eq_some_iff.mpr ⟨m, hm, hcount, hmeans.of_segmentMean? hm, rfl⟩
  rw [hnone] at hsome
  contradiction

theorem answered_mean {rest : List Method} {mean : α}
    (hmean : trustedMean? s now seg q c.observer.time = some mean) :
    Answered s now seg c q (.historicalAverage :: rest)
      ⟨Scalar.round mean, .historicalAverage⟩ := by
  obtain ⟨m, hm, hcount, -, rfl⟩ := trustedMean?_eq_some_iff.mp hmean
  exact .here ⟨m, hm, hcount⟩ ⟨m, hm, rfl⟩

theorem Answered.without_mean {rest : List Method} {e : Estimate}
    (h : Answered s now seg c q rest e) (hmeans : s.AllMeans fun m => 0 < m.count)
    (hnone : trustedMean? s now seg q c.observer.time = none) :
    Answered s now seg c q (.historicalAverage :: rest) e :=
  .later (not_enoughSamples hmeans hnone) h

/-! ## Travel times -/

/-- A first error of the filter changes nothing for the other methods. -/
theorem travel_putKalmanError {methods : List Method} (h : .kalman ∉ methods) (error : α) :
    (travel now seg c methods (s.putKalmanError now seg error)).1 =
      (travel now seg c methods s).1 := by
  induction methods with
  | nil => rfl
  | cons m rest ih =>
    have hrest := ih fun hmem => h (List.mem_cons_of_mem m hmem)
    cases m with
    | timetable => rfl
    | lastVehicle =>
      have hlast : (s.putKalmanError now seg error).lastVehicleTravel? now seg c.observer =
          s.lastVehicleTravel? now seg c.observer := rfl
      rw [travel, travel, hlast]
      cases s.lastVehicleTravel? now seg c.observer with
      | none => exact hrest
      | some value => rfl
    | historicalAverage =>
      have hmean : trustedMean? (s.putKalmanError now seg error) now seg .travel c.observer.time =
          trustedMean? s now seg .travel c.observer.time := rfl
      rw [travel, travel, hmean]
      cases trustedMean? s now seg .travel c.observer.time with
      | none => exact hrest
      | some mean => rfl
    | kalman => exact absurd List.mem_cons_self h
    | rls => exact hrest

theorem travel_answered (hmeans : s.AllMeans fun m => 0 < m.count) (now : Int) (seg : Segment α)
    (c : Situation) {methods : List Method} (hnodup : methods.Nodup)
    (htimetable : .timetable ∈ methods) :
    Answered s now seg c .travel methods (travel now seg c methods s).1 := by
  induction methods with
  | nil => contradiction
  | cons m rest ih =>
    obtain ⟨hm, hrest⟩ := List.nodup_cons.mp hnodup
    have hlater := fun hne => ih hrest (List.mem_of_ne_of_mem hne htimetable)
    cases m with
    | timetable => exact .here trivial rfl
    | lastVehicle =>
      replace hlater := hlater (by decide)
      rw [travel]
      cases hlast : s.lastVehicleTravel? now seg c.observer with
      | none => exact hlater.without_lastVehicle hlast
      | some value => exact answered_lastVehicle hlast
    | historicalAverage =>
      replace hlater := hlater (by decide)
      rw [travel]
      cases hmean : trustedMean? s now seg .travel c.observer.time with
      | none => exact hlater.without_mean hmeans hmean
      | some mean => exact answered_mean hmean
    | kalman =>
      replace hlater := hlater (by decide)
      rw [travel]
      cases herror : s.kalmanError? now seg with
      | none =>
        -- the rest is asked after the first error is kept, which only the filter would read
        dsimp only
        rw [travel_putKalmanError hm]
        exact .later (by simp [Method.HasData, herror]) hlater
      | some error =>
        cases hmean : trustedMean? s now seg .travel c.observer.time with
        | none => exact .later (fun hdata => not_enoughSamples hmeans hmean hdata.2.1) hlater
        | some mean =>
          cases hlast : s.lastVehicleTravel? now seg c.observer with
          | none => exact .later (by simp [Method.HasData, Statistics.lastVehicle?, hlast]) hlater
          | some measurement =>
            obtain ⟨m, hm, hcount, -, rfl⟩ := trustedMean?_eq_some_iff.mp hmean
            exact .here
              ⟨Option.isSome_of_eq_some herror, ⟨m, hm, hcount⟩, Option.isSome_of_eq_some hlast⟩
              ⟨error, m, measurement, herror, hm, hlast, rfl⟩
    | rls => exact .later not_false (hlater (by decide))

/-! ## Dwell times -/

theorem predict?_eq_some_iff {d : DwellModels α} {k : PathKey} {gap value : Int} :
    d.predict? now k gap = some value ↔
      ∃ model, d.cache.get? now k = some model ∧ d.minSamples ≤ model.samples ∧
        Scalar.isFinite (model.predict (DwellModels.seconds gap)) ∧
        Scalar.round (model.predict (DwellModels.seconds gap) * Scalar.ofNat 1000) = value := by
  rw [DwellModels.predict?, Option.bind_eq_some_iff]
  refine exists_congr fun model => and_congr_right fun _ => ?_
  dsimp only
  split
  · rename_i hfew
    simp [Nat.not_le.mpr hfew]
  · rename_i henough
    split
    · rename_i hfinite
      simp [Nat.not_lt.mp henough, hfinite]
    · rename_i hinfinite
      simp [hinfinite]

theorem dwell_answered (hmeans : s.AllMeans fun m => 0 < m.count)
    (hrules : s.dwellModels.minSamples = s.settings.dwellModelMinSamples) (now : Int)
    (seg : Segment α) (c : Situation) {methods : List Method} (htimetable : .timetable ∈ methods) :
    Answered s now seg c .dwell methods (dwell now seg c s methods) := by
  induction methods with
  | nil => contradiction
  | cons m rest ih =>
    have hlater := fun hne => ih (List.mem_of_ne_of_mem hne htimetable)
    cases m with
    | timetable => exact .here trivial rfl
    | lastVehicle =>
      replace hlater := hlater (by decide)
      rw [dwell]
      cases hlast : s.lastVehicleDwell? now seg c.observer with
      | none => exact hlater.without_lastVehicle hlast
      | some value => exact answered_lastVehicle hlast
    | historicalAverage =>
      replace hlater := hlater (by decide)
      rw [dwell]
      cases hmean : trustedMean? s now seg .dwell c.observer.time with
      | none => exact hlater.without_mean hmeans hmean
      | some mean => exact answered_mean hmean
    | kalman => exact .later not_false (hlater (by decide))
    | rls =>
      replace hlater := hlater (by decide)
      rw [dwell]
      split
      · rename_i hplain
        refine .later ?_ hlater
        rintro ⟨hfrequency, hpositive, -⟩
        simp [hfrequency, Int.not_le.mpr hpositive] at hplain
      · rename_i hplain
        obtain ⟨hfrequency, hpositive⟩ : seg.trip.frequencyBased = true ∧
            0 < (dwell now seg c s rest).value := by
          simpa using hplain
        cases hpredict : c.headway.bind (s.dwellModels.predict? now
            (s.pathKey .dwell seg.trip.id seg.index true c.observer.time)) with
        | none =>
          refine .later ?_ hlater
          rintro ⟨-, -, gap, model, hgap, hmodel, hcount, hfinite⟩
          rw [hgap, Option.bind_some, predict?_eq_some_iff.mpr
            ⟨model, hmodel, hrules.trans_le hcount, hfinite, rfl⟩] at hpredict
          contradiction
        | some value =>
          obtain ⟨gap, hgap, hvalue⟩ := Option.bind_eq_some_iff.mp hpredict
          obtain ⟨model, hmodel, hcount, hfinite, rfl⟩ := predict?_eq_some_iff.mp hvalue
          exact .here ⟨hfrequency, hpositive, gap, model, hgap, hmodel, hrules.symm.trans_le hcount,
            hfinite⟩ ⟨gap, model, hgap, hmodel, rfl⟩

/-! ## Strategies -/

theorem nodup_methods (strategy : Strategy) : strategy.methods.Nodup := by
  cases strategy <;> decide

theorem timetable_mem_methods (strategy : Strategy) : .timetable ∈ strategy.methods := by
  cases strategy <;> decide

/-- Whatever has been fed into empty statistics and estimated from them, and whatever the clock read
meanwhile: travel and dwell times come from the first method of the strategy that has the data, so
that no mean of too few samples enters any of them. -/
theorem changeEach_answered (settings : Settings α) (changes : List (Int × Statistics.Change α))
    (strategy : Strategy) (now : Int) (seg : Segment α) (c : Situation) :
    let s := (Statistics.empty settings).changeEach changes
    let travel := (travel now seg c strategy.methods s).1
    let dwell := dwell now seg c s strategy.methods
    Answered s now seg c .travel strategy.methods travel ∧
      Answered s now seg c .dwell strategy.methods dwell ∧
      (travel.method = .kalman ∨ travel.method = .historicalAverage →
        s.EnoughSamples now seg .travel c.observer.time) ∧
      (dwell.method = .historicalAverage → s.EnoughSamples now seg .dwell c.observer.time) := by
  intro s travel dwell
  have hmeans : s.AllMeans fun m => 0 < m.count :=
    Statistics.allMeans_changeEach settings changes RunningMean.kept_count
  obtain ⟨hsettings, -, hminSamples⟩ := (Statistics.empty settings).changeEach_rules changes
  have hrules : s.dwellModels.minSamples = s.settings.dwellModelMinSamples := by
    rw [hminSamples, hsettings]
    rfl
  have htravel : Answered s now seg c .travel strategy.methods travel :=
    travel_answered hmeans now seg c (nodup_methods strategy) (timetable_mem_methods strategy)
  have hdwell : Answered s now seg c .dwell strategy.methods dwell :=
    dwell_answered hmeans hrules now seg c (timetable_mem_methods strategy)
  refine ⟨htravel, hdwell, ?_, ?_⟩
  · obtain ⟨rest, hdata, -⟩ := htravel.hasData
    rintro (hmethod | hmethod)
    · rw [hmethod] at hdata
      exact hdata.2.1
    · rw [hmethod] at hdata
      exact hdata
  · obtain ⟨rest, hdata, -⟩ := hdwell.hasData
    intro hmethod
    rw [hmethod] at hdata
    exact hdata

/-- Three buses have taken 40, 50 and 60 seconds to the market. The first question there leaves an
error of the filter behind, so that the filter answers the second one, between mean and last bus. -/
theorem changeEach_answered_tram :
    let trip : Trip Rat := ⟨"line", "1", none, "block", "weekdays", false, 0,
      ["harbour", "market"].map fun stop => ⟨stop, 60000, 20000, 0, false, none⟩⟩
    let seg : Segment Rat := ⟨trip, 1⟩
    let c : Situation := ⟨⟨"tram", Date.ofDays 0, 400000⟩, none⟩
    let passes (bus : VehicleId) (time travel : Int) : List (Int × Statistics.Change Rat) :=
      [(time, .event ⟨bus, "line", "1", none, "block", "harbour", 0, time, .departure,
        Date.ofDays 0, 0, false, none⟩),
      (time + travel, .event ⟨bus, "line", "1", none, "block", "market", 1, time + travel, .arrival,
        Date.ofDays 0, 0, false, none⟩)]
    let s := (Statistics.empty .standard).changeEach (passes "first" 60000 40000 ++
      passes "second" 160000 50000 ++ passes "third" 260000 60000 ++
        [(400000, .travel seg c Strategy.kalman.methods)])
    (travel 400000 seg c Strategy.kalman.methods s).1 = ⟨57143, .kalman⟩ ∧
      s.EnoughSamples 400000 seg .travel 400000 := by
  intro trip seg c passes s
  obtain ⟨-, -, htravel, -⟩ := changeEach_answered .standard (passes "first" 60000 40000 ++
    passes "second" 160000 50000 ++ passes "third" 260000 60000 ++
      [(400000, .travel seg c Strategy.kalman.methods)]) .kalman 400000 seg c
  have hanswer : (travel 400000 seg c Strategy.kalman.methods s).1 = ⟨57143, .kalman⟩ := by
    decide +kernel
  exact ⟨hanswer, htravel (Or.inl (congrArg Estimate.method hanswer))⟩

end Estimate

end NextStop
