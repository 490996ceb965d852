import NextStop.Engine.Cycle
import NextStop.Proofs.Forecast.Way

/-!
# What a cycle yields

A cycle reads the statistics and the two latest reports of its vehicle, and nothing else. What it
yields is written down here as functions of these: the predictions, the headway, the arrivals and
departures, the records, the changes of the statistics and the vehicle as it comes out. The engine
after a cycle is then told in one equation, `Engine.runCycle_eq_yield`.
-/

namespace NextStop

theorem Journal.appendAll_append {α : Type} (j : Journal α) (xs ys : List (Record α)) :
    j.appendAll (xs ++ ys) = (j.appendAll xs).appendAll ys :=
  List.foldl_append

/-- Whether the vehicle is at a wait stop. -/
def Engine.Fix.waits {α : Type} [Scalar α] (s : Settings α) (f : Fix α) : Bool :=
  (((f.placement.atStop? f.trip s.defaultRadius).bind f.trip.stopPath?).map
    StopPath.waitStop).getD false

namespace Yield

variable {α : Type} [Scalar α]

/-- The forecast; there is none if only arrivals and departures are asked for. -/
def forecast (s : Statistics α) (now : Int) (v : Vehicle α) (f : Engine.Fix α) : Forecast :=
  if s.settings.stopEventsOnly then .empty
  else (Forecast.run s s.settings.strategy now (Engine.outset v f)).1

/-- The predictions within the horizon. -/
def predictions (s : Statistics α) (now : Int) (v : Vehicle α) (f : Engine.Fix α) :
    List Prediction :=
  (forecast s now v f).predictions.filter
    (Engine.withinSeconds f.report.time s.settings.predictionHorizon)

/-- The estimates for stop paths, if they are kept. -/
def estimates (s : Statistics α) (now : Int) (v : Vehicle α) (f : Engine.Fix α) :
    List PathEstimate :=
  if s.settings.recordPathEstimates then (forecast s now v f).estimates else []

/-- The headway; there is none if only arrivals and departures are asked for. -/
def headway (s : Statistics α) (now : Int) (v : Vehicle α) (f : Engine.Fix α) : Option Headway :=
  if s.settings.stopEventsOnly then none
  else s.headway? now f.trip f.placement (Engine.observer s.settings v f)

/-- The arrivals and departures since the report before. -/
def stopEvents (s : Settings α) (v : Vehicle α) (f : Engine.Fix α) : List StopEvent :=
  Passage.events v.id f.trip (v.previous.bind fun p => v.previousAt.map fun time => ⟨p, time⟩)
    ⟨f.placement, f.report.time⟩ s.defaultRadius s.utcOffset

/-- The position, if the vehicle is between stops. -/
def position (s : Settings α) (v : Vehicle α) (f : Engine.Fix α) : Option (PathPosition α) :=
  if !s.stopEventsOnly && (f.placement.atStop? f.trip s.defaultRadius).isNone then
    some (Engine.pathPosition v f)
  else none

/-- The vehicle as it comes out of the cycle. -/
def vehicle (s : Statistics α) (now : Int) (v : Vehicle α) (f : Engine.Fix α) : Vehicle α :=
  { v with
    atWaitStop := f.waits s.settings
    predictions := if s.settings.stopEventsOnly then v.predictions else predictions s now v f
    headway := if s.settings.stopEventsOnly then v.headway else headway s now v f }

/-- The outcome that is answered. -/
def outcome (s : Statistics α) (now : Int) (v : Vehicle α) (f : Engine.Fix α) : Outcome where
  predictions := (predictions s now v f).length
  headway := headway s now v f
  positionRecorded := (position s.settings v f).isSome
  stopEvents := stopEvents s.settings v f

/-- What goes on record, in order. -/
def records (s : Statistics α) (now : Int) (v : Vehicle α) (f : Engine.Fix α) :
    List (Record α) :=
  (estimates s now v f).map .pathEstimate ++
    (((predictions s now v f).filter
        (Engine.recordsPrediction s.settings f.report.time)).map .prediction ++
      ((headway s now v f).toList.map .headway ++
        ((stopEvents s.settings v f).map .stopEvent ++
          (position s.settings v f).toList.map .position)))

theorem filterMap_stopEvent?_records (s : Statistics α) (now : Int) (v : Vehicle α)
    (f : Engine.Fix α) :
    (records s now v f).filterMap Record.stopEvent? = stopEvents s.settings v f := by
  simp [records, List.filterMap_append, List.filterMap_map, Function.comp_def, Record.stopEvent?]

/-- A cycle changes no status. -/
theorem filterMap_status?_records (s : Statistics α) (now : Int) (v : Vehicle α)
    (f : Engine.Fix α) : (records s now v f).filterMap Record.status? = [] := by
  simp [records, List.filterMap_append, List.filterMap_map, Record.status?]

/-- The travel times that are estimated. -/
def travels (s : Statistics α) (v : Vehicle α) (f : Engine.Fix α) :
    List (Statistics.Change α) :=
  if s.settings.stopEventsOnly then []
  else
    let o := Engine.outset v f
    Forecast.travels s.settings.strategy.methods o (Forecast.situation s o)
      (Forecast.way s.settings o)

/-- What becomes of the statistics, in order. -/
def changes (s : Statistics α) (now : Int) (v : Vehicle α) (f : Engine.Fix α) :
    List (Statistics.Change α) :=
  travels s v f ++
    ((estimates s now v f).map .estimate ++
      ((stopEvents s.settings v f).filter fun ev => s.settings.routeCounts ev.route).map .event)

/-- The forecast is about the vehicle, its trip and its report. -/
theorem forecast_about (s : Statistics α) (now : Int) (v : Vehicle α) (f : Engine.Fix α) :
    (forecast s now v f).About (Engine.outset v f) := by
  rw [forecast]
  split
  · exact Forecast.about_empty _
  · exact Forecast.run_about _ _ _ _

/-- A forecast leaves the histories alone. -/
theorem changeAll_forecast_same (s : Statistics α) (now : Int) (v : Vehicle α) (f : Engine.Fix α) :
    s.SameHistories
      (s.changeAll now (travels s v f ++ (estimates s now v f).map .estimate)) := by
  refine Statistics.changeAll_same ?_ s now
  intro ev hev
  rw [travels] at hev
  split at hev
  · simp at hev
  · simp [Forecast.travels] at hev

/-- The arrivals and departures of a cycle enter the histories, if their routes count. -/
theorem changeAll_histories (s : Statistics α) (now : Int) (v : Vehicle α) (f : Engine.Fix α) :
    (s.feed now ((stopEvents s.settings v f).filter fun ev =>
        s.settings.routeCounts ev.route)).SameHistories
      (s.changeAll now (changes s now v f)) := by
  rw [changes, ← List.append_assoc, Statistics.changeAll_append, Statistics.changeAll_events]
  exact (changeAll_forecast_same s now v f).feed now _

theorem of_mem_predictions {s : Statistics α} {now : Int} {v : Vehicle α} {f : Engine.Fix α}
    {p : Prediction} (h : p ∈ predictions s now v f) :
    p.vehicle = v.id ∧ p.trip = f.trip.id ∧ p.reportTime = f.report.time :=
  (forecast_about s now v f).predictions p (List.mem_of_mem_filter h)

end Yield

namespace Engine

variable {α : Type} [Scalar α]

/-! ## Single steps -/

omit [Scalar α] in
theorem foldl_record_eq_appendAll {β : Type} (r : β → Record α) (xs : List β) (e : Engine α) :
    xs.foldl (fun e x => e.record (r x)) e =
      { e with journal := e.journal.appendAll (xs.map r) } := by
  induction xs generalizing e with
  | nil => rfl
  | cons x rest ih => exact ih (e.record (r x))

theorem keepEstimates_eq_changeAll (e : Engine α) (now : Int) (estimates : List PathEstimate) :
    e.keepEstimates now estimates = { e with
      statistics := e.statistics.changeAll now (estimates.map .estimate)
      journal := e.journal.appendAll (estimates.map .pathEstimate) } := by
  rw [keepEstimates]
  induction estimates generalizing e with
  | nil => rfl
  | cons p rest ih => exact ih _

theorem recordStopEvents_eq_changeAll (e : Engine α) (now : Int) (events : List StopEvent) :
    events.foldl (fun e ev => e.recordStopEvent now ev) e = { e with
      statistics := e.statistics.changeAll now
        ((events.filter fun ev => e.settings.routeCounts ev.route).map .event)
      journal := e.journal.appendAll (events.map .stopEvent) } := by
  induction events generalizing e with
  | nil => rfl
  | cons ev rest ih =>
    have hsettings : (e.recordStopEvent now ev).settings = e.settings := by
      rw [recordStopEvent]
      split
      · exact e.statistics.settings_change now (.event ev)
      · rfl
    rw [List.foldl_cons, ih, hsettings, recordStopEvent]
    split
    · rename_i hroute
      rw [List.filter_cons_of_pos (by exact hroute)]
      rfl
    · rename_i hroute
      rw [List.filter_cons_of_neg (by exact hroute)]
      rfl

/-- New predictions, where these are asked for. -/
theorem predict_eq_yield (e : Engine α) (now : Int) (v : Vehicle α) (waiting : Bool)
    (f : Fix α) (hfull : e.settings.stopEventsOnly = false) :
    e.predict now { v with atWaitStop := waiting } f =
      ({ v with
        atWaitStop := waiting
        predictions := Yield.predictions e.statistics now v f }, { e with
        statistics := e.statistics.changeAll now (Yield.travels e.statistics v f ++
          (Yield.estimates e.statistics now v f).map .estimate)
        journal := e.journal.appendAll
          ((Yield.estimates e.statistics now v f).map .pathEstimate ++
            ((Yield.predictions e.statistics now v f).filter
              (recordsPrediction e.settings f.report.time)).map .prediction)
        board := e.board.replace v.id (Yield.predictions e.statistics now v f) }) := by
  have hforecast : Yield.forecast e.statistics now v f =
      (Forecast.run e.statistics e.settings.strategy now (outset v f)).1 :=
    if_neg (Bool.eq_false_iff.mp hfull)
  have htravels : e.statistics.changeAll now (Yield.travels e.statistics v f) =
      (Forecast.run e.statistics e.settings.strategy now (outset v f)).2 := by
    rw [Forecast.run_statistics, Yield.travels]
    exact congrArg _ (if_neg (Bool.eq_false_iff.mp hfull))
  have hrun : Forecast.run e.statistics e.settings.strategy now
      (outset { v with atWaitStop := waiting } f) =
      (Yield.forecast e.statistics now v f,
        e.statistics.changeAll now (Yield.travels e.statistics v f)) :=
    Prod.ext hforecast.symm htravels.symm
  have hsettings : ({ e with
      statistics := e.statistics.changeAll now (Yield.travels e.statistics v f) } :
        Engine α).settings = e.settings :=
    e.statistics.settings_changeAll now _
  have hestimates : (if e.settings.recordPathEstimates then
        ({ e with statistics := e.statistics.changeAll now (Yield.travels e.statistics v f) } :
          Engine α).keepEstimates now (Yield.forecast e.statistics now v f).estimates
      else { e with statistics := e.statistics.changeAll now (Yield.travels e.statistics v f) }) =
      { e with
        statistics := e.statistics.changeAll now (Yield.travels e.statistics v f ++
          (Yield.estimates e.statistics now v f).map .estimate)
        journal := e.journal.appendAll
          ((Yield.estimates e.statistics now v f).map .pathEstimate) } := by
    rw [Statistics.changeAll_append]
    split
    · rename_i hkept
      rw [keepEstimates_eq_changeAll, Yield.estimates, if_pos (by exact hkept)]
    · rename_i hnone
      rw [Yield.estimates, if_neg (by exact hnone)]
      rfl
  rw [predict, hrun]
  dsimp only
  rw [hsettings, hestimates, foldl_record_eq_appendAll, Journal.appendAll_append]
  simp only [settings, Statistics.settings_changeAll]
  rfl

/-- A headway is read from what is remembered of stops, which a forecast leaves alone. -/
theorem headway?_changeAll (s : Statistics α) (now : Int) (v : Vehicle α) (f : Fix α)
    (o : Observer) :
    (s.changeAll now (Yield.travels s v f ++
        (Yield.estimates s now v f).map .estimate)).headway? now f.trip f.placement o =
      s.headway? now f.trip f.placement o := by
  have hsame := Yield.changeAll_forecast_same s now v f
  simp only [Statistics.headway?, Statistics.departureAhead?, Statistics.stopDay?,
    hsame.settings, hsame.stops]

/-- The engine after new predictions and a new headway, before anything else of a cycle. -/
def refreshed (e : Engine α) (now : Int) (v : Vehicle α) (f : Fix α) : Engine α :=
  { e with
    statistics := e.statistics.changeAll now (Yield.travels e.statistics v f ++
      (Yield.estimates e.statistics now v f).map .estimate)
    journal := e.journal.appendAll ((Yield.estimates e.statistics now v f).map .pathEstimate ++
      (((Yield.predictions e.statistics now v f).filter
          (recordsPrediction e.settings f.report.time)).map .prediction ++
        (Yield.headway e.statistics now v f).toList.map .headway))
    board := if e.settings.stopEventsOnly then e.board
      else e.board.replace v.id (Yield.predictions e.statistics now v f) }

/-- New predictions and a new headway, unless only arrivals and departures are asked for. -/
theorem refresh_eq_yield (e : Engine α) (now : Int) (v : Vehicle α) (f : Fix α) :
    e.refresh now { v with atWaitStop := f.waits e.settings } f =
      (Yield.vehicle e.statistics now v f, e.refreshed now v f) := by
  rw [refresh, Yield.vehicle, refreshed, settings]
  cases honly : e.statistics.settings.stopEventsOnly with
  | true =>
    have hforecast : Yield.forecast e.statistics now v f = .empty := if_pos honly
    have htravels : Yield.travels e.statistics v f = [] := if_pos honly
    have hheadway : Yield.headway e.statistics now v f = none := if_pos honly
    have hestimates : Yield.estimates e.statistics now v f = [] := by
      rw [Yield.estimates, hforecast]
      split <;> rfl
    rw [if_pos rfl, htravels, hheadway, hestimates, Yield.predictions, hforecast]
    rfl
  | false =>
    have hheadway : e.statistics.headway? now f.trip f.placement (observer e.statistics.settings
        { v with
          atWaitStop := f.waits e.statistics.settings
          predictions := Yield.predictions e.statistics now v f } f) =
        Yield.headway e.statistics now v f :=
      (if_neg (Bool.eq_false_iff.mp honly)).symm
    rw [if_neg Bool.false_ne_true, e.predict_eq_yield now v _ f honly]
    dsimp only
    rw [measureHeadway]
    simp only [settings, Statistics.settings_changeAll, headway?_changeAll, hheadway,
      Journal.appendAll_append]
    cases Yield.headway e.statistics now v f <;> rfl

/-- The engine after a cycle, with its answer and its vehicle. -/
theorem runCycle_eq_yield (e : Engine α) (now : Int) (v : Vehicle α) (f : Fix α) :
    e.runCycle now v f =
      (Yield.outcome e.statistics now v f, Yield.vehicle e.statistics now v f,
        ({ e with
          statistics := e.statistics.changeAll now (Yield.changes e.statistics now v f)
          journal := e.journal.appendAll (Yield.records e.statistics now v f)
          board := if e.settings.stopEventsOnly then e.board
            else e.board.replace v.id (Yield.predictions e.statistics now v f) } :
          Engine α).publish (Yield.vehicle e.statistics now v f)) := by
  have hsettings : (e.refreshed now v f).settings = e.settings :=
    e.statistics.settings_changeAll now _
  have hevents : (e.refreshed now v f).stopEvents (Yield.vehicle e.statistics now v f) f =
      Yield.stopEvents e.statistics.settings v f := by
    rw [stopEvents, hsettings]
    rfl
  have hpredictions : (if !e.settings.stopEventsOnly then
      (Yield.vehicle e.statistics now v f).predictions.length else 0) =
      (Yield.predictions e.statistics now v f).length := by
    rw [Yield.vehicle, settings]
    cases honly : e.statistics.settings.stopEventsOnly with
    | true => simp [Yield.predictions, Yield.forecast, honly, Forecast.empty]
    | false => rfl
  have hheadway : (if !e.settings.stopEventsOnly then
      (Yield.vehicle e.statistics now v f).headway else none) =
      Yield.headway e.statistics now v f := by
    rw [Yield.vehicle, settings]
    cases honly : e.statistics.settings.stopEventsOnly with
    | true => simp [Yield.headway, honly]
    | false => rfl
  have hposition : Yield.position e.statistics.settings v f =
      if !e.settings.stopEventsOnly &&
        (f.placement.atStop? f.trip e.settings.defaultRadius).isNone then
        some (pathPosition v f) else none := rfl
  rw [runCycle, ← Fix.waits, refresh_eq_yield]
  dsimp only
  rw [recordStopEvents_eq_changeAll, hsettings, hevents, hpredictions, hheadway, Yield.outcome,
    Yield.changes, Yield.records, hposition, ← List.append_assoc, Statistics.changeAll_append]
  simp only [Journal.appendAll_append, refreshed]
  split
  · rename_i hbetween
    rw [hbetween]
    rfl
  · rename_i hbetween
    rw [Bool.not_eq_true] at hbetween
    rw [hbetween]
    rfl

end Engine

end NextStop
