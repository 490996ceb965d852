import NextStop.Proofs.Engine.Steps

/-!
# Outcomes and records

What a call answers is what it puts on record. A report puts the arrivals and departures of its
outcome on record, and as many predictions as the outcome counts if there is no horizon for
records, `Engine.take_journal`; a sweep puts exactly its events on record, which are timeouts, and
nothing else times a vehicle out, `Engine.sweep_journal`.
-/

namespace NextStop

/-- The prediction of a prediction record. -/
def Record.prediction? {α : Type} : Record α → Option Prediction
  | .prediction p => some p
  | _ => none

namespace Record

variable {α : Type} (events : List StatusEvent)

/-! Changes of status put on record are found among the changes of status only. -/

theorem filterMap_status?_status :
    (events.map (status (α := α))).filterMap status? = events := by
  rw [List.filterMap_map]
  exact List.filterMap_some

theorem filterMap_stopEvent?_status :
    (events.map (status (α := α))).filterMap stopEvent? = [] := by
  rw [List.filterMap_map]
  exact List.filterMap_none events

theorem filterMap_prediction?_status :
    (events.map (status (α := α))).filterMap prediction? = [] := by
  rw [List.filterMap_map]
  exact List.filterMap_none events

end Record

namespace Engine

variable {α : Type} [Scalar α]

/-- The outcome of a report, which is nothing if the report is rejected. -/
def outcome (e : Engine α) (now : Int) (m : MatchedReport α) : Outcome :=
  match (e.take now m).1 with
  | .ok o => o
  | .error _ => .nothing

/-- What is on record accounts for an outcome. -/
structure Accounts (s : Settings α) (records : List (Record α)) (o : Outcome) : Prop where
  stopEvents : records.filterMap Record.stopEvent? = o.stopEvents
  predictions : s.recordedHorizon = 0 →
    (records.filterMap Record.prediction?).length = o.predictions
  no_timeout : ∀ ev ∈ records.filterMap Record.status?, ev.kind ≠ .timeout

omit [Scalar α] in
theorem accounts_nothing (s : Settings α) : Accounts s ([] : List (Record α)) .nothing :=
  ⟨rfl, fun _ => rfl, by simp⟩

omit [Scalar α] in
/-- A change of status that is no timeout accounts for an outcome of nothing. -/
theorem accounts_change (s : Settings α) {event : Option StatusEvent}
    (h : ∀ ev, event = some ev → ev.kind ≠ .timeout) :
    Accounts s ((event.toList.map .status : List (Record α))) .nothing := by
  cases event with
  | none => exact accounts_nothing s
  | some ev => exact ⟨rfl, fun _ => rfl, by simpa [Record.status?] using h ev rfl⟩

theorem accounts_runCycle (e : Engine α) (now : Int) (v : Vehicle α) (f : Fix α) :
    ∃ records, (e.runCycle now v f).2.2.journal = e.journal.appendAll records ∧
      Accounts e.settings records (e.runCycle now v f).1 := by
  rw [runCycle_eq_yield]
  refine ⟨Yield.records e.statistics now v f, journal_publish _ _, ?_, ?_, ?_⟩
  · exact Yield.filterMap_stopEvent?_records e.statistics now v f
  · intro hall
    have hrecords : recordsPrediction e.statistics.settings f.report.time = fun _ => true := by
      funext p
      rw [recordsPrediction, show e.statistics.settings.recordedHorizon = 0 from hall]
      rfl
    simp [Yield.records, Yield.outcome, hrecords, List.filterMap_append, List.filterMap_map,
      Function.comp_def, Record.prediction?]
  · rw [Yield.filterMap_status?_records]
    simp

omit [Scalar α] in
/-- What goes on record before a cycle is a change of status. -/
theorem Accounts.after_change {s : Settings α} {records : List (Record α)} {o : Outcome}
    (h : Accounts s records o) {event : Option StatusEvent}
    (hevent : ∀ ev, event = some ev → ev.kind ≠ .timeout) :
    Accounts s (event.toList.map .status ++ records) o := by
  obtain ⟨hnone, hnothing, hkind⟩ := accounts_change s hevent
  constructor
  · rw [List.filterMap_append, hnone, h.stopEvents]
    rfl
  · intro hall
    rw [List.filterMap_append, List.length_append, hnothing hall, h.predictions hall]
    exact Nat.zero_add _
  · intro ev hev
    rw [List.filterMap_append, List.mem_append] at hev
    exact hev.elim (hkind ev) (h.no_timeout ev)

theorem accounts_takePlaced (e : Engine α) (now : Int) {m : MatchedReport α} {p : Placement α}
    {t : Trip α} (hlead : m.report.inConsist = false)
    (htake : e.take now m = e.takePlaced now m.report p t m.scheduleBased) :
    ∃ records, (e.take now m).2.journal = e.journal.appendAll records ∧
      Accounts e.settings records (e.outcome now m) := by
  have hevent : ∀ ev, ((e.vehicle m.report.vehicle).place m.report p t).2 = some ev →
      ev.kind ≠ .timeout := by
    intro ev hev
    rw [(Vehicle.place_event hev).1]
    simp
  have hresult := takePlaced_result m.report p t m.scheduleBased e now hlead
  rw [outcome, htake, hresult, takePlaced_eq m.report p t m.scheduleBased e now hlead]
  split
  · exact ⟨_, e.journal_recordChange _, accounts_change e.settings hevent⟩
  · obtain ⟨records, hjournal, haccounts⟩ := accounts_runCycle
      (e.recordChange ((e.vehicle m.report.vehicle).place m.report p t).2) now
      (e.placed m.report p t m.scheduleBased) ⟨m.report, p, t⟩
    rw [settings_recordChange] at haccounts
    refine ⟨_, ?_, haccounts.after_change hevent⟩
    rw [Journal.appendAll_append, ← journal_recordChange]
    exact hjournal

/-- What a report puts on record accounts for its outcome. -/
theorem take_journal (e : Engine α) (now : Int) (m : MatchedReport α) :
    ∃ records, (e.take now m).2.journal = e.journal.appendAll records ∧
      Accounts e.settings records (e.outcome now m) := by
  rcases e.take_cases now m with
    ⟨-, htake⟩ | ⟨-, -, htake⟩ | ⟨p, -, -, -, htake⟩ | ⟨p, t, hlead, -, -, htake⟩
  · rw [outcome, htake]
    exact ⟨[], rfl, accounts_nothing e.settings⟩
  · have hevent : ∀ ev, ((e.vehicle m.report.vehicle).misplace m.report).2 = some ev →
        ev.kind ≠ .timeout := by
      intro ev hev
      rw [(Vehicle.misplace_event hev).1]
      simp
    rw [outcome, htake]
    refine ⟨_, ?_, accounts_change e.settings hevent⟩
    rw [takeUnplaced]
    dsimp only
    split
    · rename_i ev hev
      rw [hev]
      exact e.journal_afterDemotion _ _
    · rename_i hnone
      rw [hnone]
      rfl
  · rw [outcome, htake]
    exact ⟨[], rfl, accounts_nothing e.settings⟩
  · exact accounts_takePlaced e now hlead htake

/-- A sweep puts its events on record, all of them timeouts. -/
theorem sweepAll_journal (now : Int) (watched : List (VehicleId × Int)) (e : Engine α) :
    (sweepAll now watched e).2.journal =
        e.journal.appendAll ((sweepAll now watched e).1.map .status) ∧
      ∀ ev ∈ (sweepAll now watched e).1, ev.kind = .timeout := by
  induction watched generalizing e with
  | nil => exact ⟨rfl, by simp [sweepAll]⟩
  | cons w rest ih =>
    obtain ⟨hjournal, hkind⟩ := ih (e.sweepOne now w.1 w.2).2
    have hone : ∀ ev ∈ (e.sweepOne now w.1 w.2).1, ev.kind = .timeout := by
      intro ev hev
      rw [sweepOne] at hev
      split at hev
      · contradiction
      · dsimp only at hev
        split at hev
        · contradiction
        · contradiction
        · contradiction
        · obtain rfl := Option.some.inj hev
          rfl
    rw [sweepAll]
    dsimp only
    constructor
    · rw [hjournal, journal_sweepOne, ← Journal.appendAll_append, ← List.map_append]
    · intro ev hev
      rcases List.mem_append.mp hev with hfirst | hlater
      · exact hone ev (Option.mem_toList.mp hfirst)
      · exact hkind ev hlater

theorem sweep_journal (e : Engine α) (now : Int) :
    (e.sweep now).2.journal = e.journal.appendAll ((e.sweep now).1.map .status) ∧
      ∀ ev ∈ (e.sweep now).1, ev.kind = .timeout :=
  sweepAll_journal now e.watch.toList e

end Engine

end NextStop
