import NextStop.Proofs.Engine.Effect
import NextStop.Proofs.Forecast.Itinerary
import NextStop.Proofs.Statistics.Bookkeeping
import NextStop.Proofs.Statistics.Shelves

/-!
# Estimates on record and in the cache

A report that goes through a cycle leaves every estimate of its forecast in two places: on record,
and in the cache of estimates, where the estimate of another vehicle for the same stop path may
have been. No two estimates of a forecast are for the same travel or dwell time, and so they do
not overwrite each other; all are written at one reading of the clock, and so a cache with room
for them evicts none, `Engine.take_estimates`.

What the engine calls for comes down to changes of the statistics, `Engine.statistics_perform`.
This keeps the bounds of all caches, `Statistics.Bounded`.
-/

namespace NextStop

/-- The key under which an estimate is kept. -/
def PathEstimate.key (p : PathEstimate) : PathKey := .plain p.quantity p.trip p.index

/-- Estimates for different places have different keys. -/
theorem PathEstimate.nodup_key {estimates : List PathEstimate}
    (h : (estimates.map part).Nodup) : (estimates.map key).Nodup := by
  have hpart : part = (fun k : PathKey => (k.index, k.quantity)) ∘ key := rfl
  rw [hpart, ← List.map_map] at h
  exact h.of_map _

/-- The estimate of a record. -/
def Record.pathEstimate? {α : Type} : Record α → Option PathEstimate
  | pathEstimate p => some p
  | _ => none

/-! ## Forecasts -/

namespace Forecast

variable {α : Type} [Scalar α]

/-- A walk estimates nothing twice, and nothing before its first stop. -/
theorem walk_parts (methods : List Method) (o : Outset α) (now : Int) (first : Nat) (time : Int)
    (remaining : α) (s : Statistics α) :
    let f := (walk methods o now (ahead o.trip first) time remaining s).1
    (f.estimates.map PathEstimate.part).Nodup ∧
      ∀ part ∈ f.estimates.map PathEstimate.part, first ≤ part.1 := by
  by_cases hfirst : first < o.trip.stopPaths.length
  · obtain ⟨count, hcount⟩ : ∃ count, first + count + 1 = o.trip.stopPaths.length :=
      ⟨o.trip.stopPaths.length - first - 1, by omega⟩
    dsimp only
    rw [(walk_calls methods o now hcount time remaining s).2]
    exact ⟨nodup_parts first count, fun part hpart => le_of_mem_parts hpart⟩
  · rw [ahead_of_le _ (Nat.le_of_not_lt hfirst)]
    exact ⟨List.nodup_nil, fun part hpart => absurd hpart List.not_mem_nil⟩

/-- A forecast estimates nothing twice. -/
theorem run_parts_nodup (s : Statistics α) (strategy : Strategy) (now : Int) (o : Outset α) :
    ((run s strategy now o).1.estimates.map PathEstimate.part).Nodup := by
  rw [run]
  dsimp only
  split
  · rename_i stop hstop
    split
    · exact List.nodup_nil
    · have hdwell := (depart_calls s strategy.methods o now stop o.time).2
      obtain ⟨hnodup, hahead⟩ := walk_parts strategy.methods o now (stop + 1)
        (depart s strategy.methods o now stop o.time).2 1 s
      rw [estimates_append, List.map_append, hdwell]
      refine List.nodup_append.mpr ⟨List.nodup_singleton _, hnodup, ?_⟩
      rintro part hpart later hlater rfl
      obtain rfl := List.mem_singleton.mp hpart
      exact Nat.not_succ_le_self stop (hahead _ hlater)
  · exact (walk_parts strategy.methods o now _ o.time _ s).1

end Forecast

/-! ## The statistics -/

namespace Statistics

variable {α : Type}

/-- All caches keep to the bounds that they were made with. -/
def Bounded (capacity : Nat) (lifetime : Int) (s : Statistics α) : Prop :=
  ∀ x, (s.shelf x).Kept capacity lifetime

variable [Scalar α]

theorem Bounded.empty (settings : Settings α) :
    (Statistics.empty settings).Bounded settings.cacheCapacity settings.cacheLifetime := by
  intro x
  cases x <;> exact .empty _ _

theorem Bounded.changeAll {capacity : Nat} {lifetime : Int} {s : Statistics α}
    (h : s.Bounded capacity lifetime) (now : Int) (changes : List (Change α)) :
    (s.changeAll now changes).Bounded capacity lifetime := by
  rw [changeAll_eq_writeAll]
  exact forall_shelf_writeAll (fun _ _ change hc => hc.perform change) h now _

/-- The estimate that a change keeps. -/
def Change.estimate? : Change α → Option PathEstimate
  | .estimate p => some p
  | _ => none

theorem pathEstimates_addToMean (s : Statistics α) (now : Int) (frequencyBased : Bool)
    (k : PathKey) (duration : Int) :
    (s.addToMean now frequencyBased k duration).pathEstimates = s.pathEstimates := by
  cases frequencyBased <;> rfl

theorem pathEstimates_recordTravel (s : Statistics α) (now : Int) (log : EventLog)
    (arrival : StopEvent) : (s.recordTravel now log arrival).pathEstimates = s.pathEstimates := by
  rw [recordTravel]
  split
  · rfl
  · dsimp only
    split
    · exact s.pathEstimates_addToMean now _ _ _
    · rfl

theorem pathEstimates_recordDwell (s : Statistics α) (now : Int) (log : EventLog)
    (departure : StopEvent) (headway : Option Int) :
    (s.recordDwell now log departure headway).pathEstimates = s.pathEstimates := by
  rw [recordDwell]
  split
  · rfl
  · dsimp only
    split
    · split <;> exact s.pathEstimates_addToMean now _ _ _
    · rfl

theorem pathEstimates_put (s : Statistics α) (now : Int) (e : StopEvent) :
    (s.put now e).pathEstimates = s.pathEstimates := by
  rw [put]
  cases e.kind with
  | arrival => exact pathEstimates_recordTravel (s.pushRun now e) now _ e
  | departure => exact pathEstimates_recordDwell (s.pushRun now e) now _ e _

theorem pathEstimates_travel (s : Statistics α) (now : Int) (seg : Segment α) (c : Situation)
    (methods : List Method) :
    (Estimate.travel now seg c methods s).2.pathEstimates = s.pathEstimates := by
  rw [travel_eq_writeAll]
  refine s.shelf_writeAll_of_ne now (x := .pathEstimates) ?_
  intro w hw
  obtain ⟨error, -, rfl⟩ := List.mem_map.mp hw
  exact Shelf.noConfusion

/-- Of some changes, those that keep an estimate write to the cache of estimates. -/
theorem pathEstimates_changeAll (s : Statistics α) (now : Int) (changes : List (Change α)) :
    (s.changeAll now changes).pathEstimates =
      s.pathEstimates.run
        ((changes.filterMap Change.estimate?).map fun p => (now, .put p.key p)) := by
  induction changes generalizing s with
  | nil => rfl
  | cons c rest ih =>
    refine (ih (s.change now c)).trans ?_
    cases c with
    | travel seg situation methods =>
      exact congrArg (ExpiringCache.run · _) (s.pathEstimates_travel now seg situation methods)
    | estimate p => rfl
    | event ev => exact congrArg (ExpiringCache.run · _) (s.pathEstimates_put now ev)

end Statistics

/-! ## Cycles -/

namespace Yield

variable {α : Type} [Scalar α]

theorem filterMap_estimate?_changes (s : Statistics α) (now : Int) (v : Vehicle α)
    (f : Engine.Fix α) :
    (changes s now v f).filterMap Statistics.Change.estimate? = estimates s now v f := by
  have htravels : (travels s v f).filterMap Statistics.Change.estimate? = [] := by
    rw [travels]
    split
    · rfl
    · simp [Forecast.travels, List.filterMap_map, Statistics.Change.estimate?]
  rw [changes, List.filterMap_append, htravels, List.nil_append, List.filterMap_append]
  simp [List.filterMap_map, Function.comp_def, Statistics.Change.estimate?]

theorem filterMap_pathEstimate?_records (s : Statistics α) (now : Int) (v : Vehicle α)
    (f : Engine.Fix α) :
    (records s now v f).filterMap Record.pathEstimate? = estimates s now v f := by
  simp [records, List.filterMap_append, List.filterMap_map, Function.comp_def,
    Record.pathEstimate?]

end Yield

namespace Engine

variable {α : Type} [Scalar α]

/-- What any call makes of the statistics are changes at one reading of the clock. -/
theorem statistics_perform {e : Engine α} (hfiled : e.Filed) (call : Int × Call α) :
    ∃ changes, (e.perform call).statistics = e.statistics.changeAll call.1 changes := by
  obtain ⟨now, call⟩ := call
  cases call with
  | report m => exact ⟨_, (e.take_effect hfiled now m).2.statistics_eq⟩
  | unassign id => exact ⟨[], (e.sameBasis_unassign now id).statistics⟩
  | warmUp history => exact ⟨_, (e.statistics.changeAll_events now _).symm⟩
  | sweep => exact ⟨[], (e.sameBasis_sweep now).statistics⟩

/-- The caches of an engine stay within their bounds. -/
theorem bounded_performAll {e : Engine α} (hfiled : e.Filed) {capacity : Nat} {lifetime : Int}
    (h : e.statistics.Bounded capacity lifetime) (calls : List (Int × Call α)) :
    (e.performAll calls).statistics.Bounded capacity lifetime := by
  induction calls generalizing e with
  | nil => exact h
  | cons call rest ih =>
    obtain ⟨changes, hchanges⟩ := statistics_perform hfiled call
    refine ih (hfiled.performAll [call]) ?_
    rw [hchanges]
    exact h.changeAll call.1 changes

/-- The estimates of the forecast for a vehicle that a report has placed. -/
def estimates (e : Engine α) (now : Int) (r : Report α) (p : Placement α) (t : Trip α)
    (scheduleBased : Bool) : List PathEstimate :=
  (Forecast.run e.statistics e.settings.strategy now
    (outset (e.placed r p t scheduleBased) ⟨r, p, t⟩)).1.estimates

/-- What a cycle with a full forecast makes of its estimates: they go on record, and are written
to their cache one after the other. -/
theorem take_eq_estimates {e : Engine α} (hfiled : e.Filed) {now : Int} {m : MatchedReport α}
    {p : Placement α} {t : Trip α} {outcome : Outcome}
    (hkept : e.settings.recordPathEstimates = true) (hfull : e.settings.stopEventsOnly = false)
    (hlead : m.report.inConsist = false) (hp : m.placement = some p)
    (ht : e.timetable.trip? p.trip = some t) (hok : (e.take now m).1 = .ok outcome) :
    ∃ records, (e.take now m).2.journal = e.journal.appendAll records ∧
      records.filterMap Record.pathEstimate? = e.estimates now m.report p t m.scheduleBased ∧
      (e.take now m).2.statistics.pathEstimates = e.statistics.pathEstimates.run
        ((e.estimates now m.report p t m.scheduleBased).map fun q => (now, .put q.key q)) := by
  obtain ⟨hresult, hundergoes⟩ := e.take_effect hfiled now m
  have hestimates : Yield.estimates e.statistics now (e.placed m.report p t m.scheduleBased)
      ⟨m.report, p, t⟩ = e.estimates now m.report p t m.scheduleBased := by
    rw [Yield.estimates, if_pos (by exact hkept), Yield.forecast,
      if_neg (by exact Bool.eq_false_iff.mp hfull)]
    rfl
  have heffect : e.effect now m = .ofPlaced e.statistics (e.standing m.report.vehicle) now
      ⟨m.report, p, t⟩ m.scheduleBased := by
    simp only [effect, Effect.ofReport, hlead, hp, ht, Bool.false_eq_true, if_false]
  rw [heffect] at hresult hundergoes
  by_cases hout : t.stopPath? p.index = none
  · rw [hok, Effect.ofPlaced, if_pos hout] at hresult
    contradiction
  · rw [Effect.ofPlaced, if_neg hout] at hundergoes
    refine ⟨_, hundergoes.journal_eq, ?_, ?_⟩
    · have hstatus : ∀ event : Option StatusEvent,
          (event.toList.map (Record.status (α := α))).filterMap Record.pathEstimate? = [] := by
        intro event
        cases event <;> rfl
      rw [Effect.processed, List.filterMap_append, hstatus, List.nil_append,
        Yield.filterMap_pathEstimate?_records]
      exact hestimates
    · rw [hundergoes.statistics_eq, Statistics.pathEstimates_changeAll, Effect.processed,
        Yield.filterMap_estimate?_changes, ← hestimates]
      rfl

/-- After any run of calls, a report that goes through a full cycle puts each of its estimates on
record once. If the cache has room for them, each is what the cache answers at the reading of the
clock, whatever was there before. -/
theorem performAll_keeps_estimates (settings : Settings α) (timetable : Timetable α)
    (journal : Journal α) (calls : List (Int × Call α)) (now : Int) {m : MatchedReport α}
    {p : Placement α} {t : Trip α} {outcome : Outcome}
    (hkept : settings.recordPathEstimates = true) (hfull : settings.stopEventsOnly = false)
    (hlead : m.report.inConsist = false) (hp : m.placement = some p)
    (ht : timetable.trip? p.trip = some t) :
    let e := (start settings timetable journal).performAll calls
    let estimates := e.estimates now m.report p t m.scheduleBased
    (e.take now m).1 = .ok outcome → estimates.length ≤ max settings.cacheCapacity 1 →
    ∃ records, (e.take now m).2.journal = e.journal.appendAll records ∧
      records.filterMap Record.pathEstimate? = estimates ∧
      ∀ q ∈ estimates, estimates.count q = 1 ∧ q.vehicle = m.report.vehicle ∧
        (e.take now m).2.statistics.pathEstimate? now (.plain q.quantity q.trip q.index) =
          some q := by
  intro e estimates hok hroom
  have hfiled : e.Filed := (Filed.start settings timetable journal).performAll calls
  have hsettings : e.settings = settings :=
    settings_performAll (Filed.start settings timetable journal) calls
  have htimetable : e.timetable = timetable :=
    timetable_performAll (start settings timetable journal) calls
  obtain ⟨records, hjournal, hrecords, hcache⟩ := take_eq_estimates hfiled (hsettings ▸ hkept)
    (hsettings ▸ hfull) hlead hp (htimetable ▸ ht) hok
  have hkeys : (estimates.map PathEstimate.key).Nodup :=
    PathEstimate.nodup_key (Forecast.run_parts_nodup _ _ _ _)
  have hbounded : e.statistics.pathEstimates.Kept settings.cacheCapacity settings.cacheLifetime :=
    bounded_performAll (Filed.start settings timetable journal) (.empty settings) calls
      .pathEstimates
  refine ⟨records, hjournal, hrecords, fun q hq => ⟨?_, ?_, ?_⟩⟩
  · exact List.count_eq_one_of_mem hkeys.of_map hq
  · have habout := (Forecast.run_about _ _ _ _).estimates q hq
    exact habout.1.trans (hfiled.placed_id m.report p t m.scheduleBased)
  · let pairs := estimates.map fun q => (q.key, q)
    have hfst : pairs.map Prod.fst = estimates.map PathEstimate.key := List.map_map
    have hputs : (estimates.map fun q => (now, ExpiringCache.Change.put q.key q)) =
        pairs.map fun pair => (now, .put pair.1 pair.2) := by
      rw [List.map_map]
      rfl
    have hlength : pairs.length ≤ e.statistics.pathEstimates.capacity := by
      rw [List.length_map, hbounded.capacity_eq]
      exact hroom
    rw [Statistics.pathEstimate?, hcache, hputs]
    exact (hbounded.wellKept (Statistics.cacheLifetime_nonneg settings)).get?_batch now
      (hfst ▸ hkeys) hlength (List.mem_map_of_mem hq)

/-- There is room for three estimates, two of a ferry on its crossing and one of a bus on the last
stop path of a line. The three of a tram on that line take the place of them all. -/
theorem performAll_keeps_estimates_tram :
    let trip (id : TripId) : Trip Rat := ⟨id, "1", none, "block", "weekdays", false, 0,
      ["harbour", "market"].map fun stop => ⟨stop, 60000, 0, 0, false, none⟩⟩
    let seen (vehicle : VehicleId) (time : Int) (id : TripId) (index : Nat) : MatchedReport Rat :=
      ⟨⟨vehicle, time, 0, 0, false⟩, some ⟨id, "block", 0, index, 250, 500⟩, false⟩
    let settings : Settings Rat :=
      { Settings.standard with recordPathEstimates := true, cacheCapacity := 3 }
    let e := (start settings (.ofTrips [trip "line", trip "crossing"]) (.kept #[])).performAll
      [(0, .report (seen "ferry" 0 "crossing" 0)), (10000, .report (seen "bus" 10000 "line" 1))]
    let e' := (e.take 20000 (seen "tram" 20000 "line" 0)).2
    let found (e : Engine Rat) (quantity : Quantity) (id : TripId) (index : Nat) :=
      (e.statistics.pathEstimate? 20000 (.plain quantity id index)).map (·.vehicle)
    found e .dwell "crossing" 0 = some "ferry" ∧ found e .travel "crossing" 1 = some "ferry" ∧
      found e .travel "line" 1 = some "bus" ∧
      found e' .travel "line" 0 = some "tram" ∧ found e' .dwell "line" 0 = some "tram" ∧
      found e' .travel "line" 1 = some "tram" := by
  intro trip seen settings e e' found
  have hok : (e.take 20000 (seen "tram" 20000 "line" 0)).1 = .ok ⟨2, none, true, []⟩ := by
    decide +kernel
  have hkeys : (e.estimates 20000 (seen "tram" 20000 "line" 0).report
      ⟨"line", "block", 0, 0, 250, 500⟩ (trip "line") false).map PathEstimate.key =
      [.plain .travel "line" 0, .plain .dwell "line" 0, .plain .travel "line" 1] := by
    decide +kernel
  obtain ⟨-, -, -, hall⟩ := performAll_keeps_estimates settings
    (.ofTrips [trip "line", trip "crossing"]) (.kept #[])
    [(0, .report (seen "ferry" 0 "crossing" 0)), (10000, .report (seen "bus" 10000 "line" 1))]
    20000 (m := seen "tram" 20000 "line" 0) (t := trip "line") rfl rfl rfl rfl (by decide +kernel)
    hok (by rw [← List.length_map PathEstimate.key, hkeys]; decide)
  have hfound : ∀ quantity id index, PathKey.plain quantity id index ∈
      [PathKey.plain .travel "line" 0, .plain .dwell "line" 0, .plain .travel "line" 1] →
      found e' quantity id index = some "tram" := by
    intro quantity id index hmem
    rw [← hkeys] at hmem
    obtain ⟨q, hq, hkey⟩ := List.mem_map.mp hmem
    obtain ⟨-, hvehicle, hread⟩ := hall q hq
    rw [← PathEstimate.key, hkey] at hread
    dsimp only [found, e', e]
    rw [hread, Option.map_some, hvehicle]
  exact ⟨by decide +kernel, by decide +kernel, by decide +kernel, hfound _ _ _ (by decide),
    hfound _ _ _ (by decide), hfound _ _ _ (by decide)⟩

end Engine

end NextStop
