import NextStop.Proofs.Engine.Coherence
import NextStop.Proofs.Engine.Outcomes
import NextStop.Replay

/-!
# What a replay counts

The counts of a replay are added up from the answers of its calls, and what they count is put on
record deep inside those calls. They agree: `Replay.Tallies` relates a summary to the reports that
were taken and to the records that were added meanwhile, every step of a replay keeps it, and a
replay comes to an end unless a report is at the last time of all, `Replay.run?_summary`.
-/

namespace NextStop

namespace Timetable

variable {α : Type}

/-- Whether a report leads to an error: it is not of a coupled vehicle, and it is placed on a trip
that the timetable does not have or on a stop path that the trip does not have. -/
def rejects (tt : Timetable α) (m : MatchedReport α) : Bool :=
  !m.report.inConsist &&
    match m.placement with
    | none => false
    | some p =>
      match tt.trip? p.trip with
      | none => true
      | some t => (t.stopPath? p.index).isNone

end Timetable

namespace Engine

variable {α : Type} [Scalar α]

/-- Exactly the reports that the timetable rejects lead to an error. -/
theorem take_answer (e : Engine α) (now : Int) (m : MatchedReport α) :
    if e.timetable.rejects m then
      (∃ error, (e.take now m).1 = .error error) ∧ e.outcome now m = .nothing
    else (e.take now m).1 = .ok (e.outcome now m) := by
  rcases e.take_cases now m with
    ⟨hcoupled, htake⟩ | ⟨hlead, hplacement, htake⟩ | ⟨p, hlead, hplacement, hunknown, htake⟩ |
      ⟨p, t, hlead, hplacement, htrip, htake⟩
  · simp [Timetable.rejects, outcome, hcoupled, htake]
  · simp [Timetable.rejects, outcome, hlead, hplacement, htake]
  · simp [Timetable.rejects, outcome, hlead, hplacement, hunknown, htake]
  · have hresult := takePlaced_result m.report p t m.scheduleBased e now hlead
    rw [← htake] at hresult
    by_cases hout : t.stopPath? p.index = none
    · simp [Timetable.rejects, outcome, hlead, hplacement, htrip, hresult, hout]
    · simp [Timetable.rejects, outcome, hlead, hplacement, htrip, hresult, hout]

end Engine

namespace Replay

variable {α : Type} [Scalar α]

/-- The counts of a summary are those of the reports taken and of the records added meanwhile. -/
structure Tallies (settings : Settings α) (tt : Timetable α) (taken : List (MatchedReport α))
    (records : List (Record α)) (c : Summary) : Prop where
  reports_eq : c.reports = taken.length
  matched_eq : c.matched = taken.countP (·.placement.isSome)
  rejected_eq : c.rejected = taken.countP tt.rejects
  timeouts_eq : c.timeouts = (records.filterMap Record.status?).countP (·.kind = .timeout)
  stopEvents_eq : c.stopEvents = (records.filterMap Record.stopEvent?).length
  predictions_eq : settings.recordedHorizon = 0 →
    c.predictions = (records.filterMap Record.prediction?).length

/-- A state of a replay that was started with an engine, after some reports. -/
structure Tallied (e : Engine α) (taken : List (MatchedReport α)) (s : State α) : Prop where
  settings_eq : s.engine.settings = e.settings
  timetable_eq : s.engine.timetable = e.timetable
  tallies : ∃ records, s.engine.journal = e.journal.appendAll records ∧
    Tallies e.settings e.timetable taken records s.summary

/-- A report in the summary: what is counted of it is its outcome. -/
theorem takeReport_summary (s : State α) (m : MatchedReport α) :
    let o := s.engine.outcome (max s.clock m.report.time) m
    (takeReport s m).summary = { s.summary with
      reports := s.summary.reports + 1
      matched := s.summary.matched + (if m.placement.isSome then 1 else 0)
      rejected := s.summary.rejected + (if s.engine.timetable.rejects m then 1 else 0)
      predictions := s.summary.predictions + o.predictions
      stopEvents := s.summary.stopEvents + o.stopEvents.length } := by
  intro o
  have hanswer := s.engine.take_answer (max s.clock m.report.time) m
  split at hanswer
  · rename_i hrejects
    obtain ⟨⟨error, herror⟩, hnothing⟩ := hanswer
    simp [takeReport, advance, herror, hnothing, hrejects, o, Outcome.nothing]
  · rename_i haccepts
    simp [takeReport, advance, hanswer, haccepts, o]

omit [Scalar α] in
theorem tallied_start (e : Engine α) (clock : Int) : Tallied e [] ⟨e, clock, .zero⟩ :=
  ⟨rfl, rfl, [], rfl, rfl, rfl, rfl, rfl, rfl, fun _ => rfl⟩

theorem Tallied.sweepAt {e : Engine α} {taken : List (MatchedReport α)} {s : State α}
    (h : Tallied e taken s) (time : Int) : Tallied e taken (sweepAt s time) := by
  obtain ⟨hsettings, htimetable, records, hjournal, hcounts⟩ := h
  let now := max s.clock time
  let events := (s.engine.sweep now).1
  obtain ⟨hswept, hkind⟩ := s.engine.sweep_journal now
  refine ⟨?_, (s.engine.sameBasis_sweep now).timetable.trans htimetable,
    records ++ events.map .status, ?_, ?_⟩
  · have hadvances : s.engine.Advances now (s.engine.sweep now).2 := s.engine.advances_sweep
    exact hadvances.settings_eq.trans hsettings
  · rw [Journal.appendAll_append, ← hjournal]
    exact hswept
  · have htimeouts : events.countP (·.kind = .timeout) = events.length :=
      List.countP_eq_length.mpr fun ev hev => decide_eq_true (hkind ev hev)
    refine ⟨hcounts.reports_eq, hcounts.matched_eq, hcounts.rejected_eq, ?_, ?_, ?_⟩
    · rw [List.filterMap_append, Record.filterMap_status?_status, List.countP_append, htimeouts,
        ← hcounts.timeouts_eq]
      rfl
    · rw [List.filterMap_append, Record.filterMap_stopEvent?_status, List.append_nil]
      exact hcounts.stopEvents_eq
    · rw [List.filterMap_append, Record.filterMap_prediction?_status, List.append_nil]
      exact hcounts.predictions_eq

/-- A check of the queue adds nothing. -/
theorem Tallied.checkQueue {e : Engine α} {taken : List (MatchedReport α)} {s : State α}
    (h : Tallied e taken s) : Tallied e taken (checkQueue s) := by
  obtain ⟨hsettings, htimetable, records, hjournal, hcounts⟩ := h
  exact ⟨hsettings, htimetable, records, hjournal, hcounts.1, hcounts.2, hcounts.3, hcounts.4,
    hcounts.5, hcounts.6⟩

theorem Tallied.sweeps {e : Engine α} {taken : List (MatchedReport α)} {s : State α}
    (h : Tallied e taken s) (interval : Int) (n : Nat) (time : Int) :
    Tallied e taken (sweeps interval n time s) := by
  induction n generalizing s time with
  | zero => exact h
  | succ n ih => exact ih (h.sweepAt time).checkQueue _

theorem Tallied.takeReport {e : Engine α} {taken : List (MatchedReport α)} {s : State α}
    (h : Tallied e taken s) (m : MatchedReport α) :
    Tallied e (taken ++ [m]) (takeReport s m) := by
  obtain ⟨hsettings, htimetable, records, hjournal, hcounts⟩ := h
  let now := max s.clock m.report.time
  obtain ⟨new, hnew, haccounts⟩ := s.engine.take_journal now m
  refine ⟨?_, (s.engine.timetable_take now m).trans htimetable, records ++ new, ?_, ?_⟩
  · have hadvances : s.engine.Advances now (s.engine.take now m).2 := s.engine.advances_take m
    exact hadvances.settings_eq.trans hsettings
  · rw [Journal.appendAll_append, ← hjournal]
    exact hnew
  · have hno : (new.filterMap Record.status?).countP (·.kind = .timeout) = 0 :=
      List.countP_eq_zero.mpr fun ev hev => by simpa using haccounts.no_timeout ev hev
    rw [takeReport_summary]
    constructor
    · rw [List.length_append, ← hcounts.reports_eq]
      rfl
    · rw [List.countP_append, ← hcounts.matched_eq, List.countP_singleton]
    · rw [List.countP_append, ← hcounts.rejected_eq, List.countP_singleton, htimetable]
    · rw [List.filterMap_append, List.countP_append, hno]
      exact hcounts.timeouts_eq
    · rw [List.filterMap_append, List.length_append, haccounts.stopEvents, ← hcounts.stopEvents_eq]
    · intro hall
      rw [List.filterMap_append, List.length_append, haccounts.predictions (hsettings ▸ hall),
        ← hcounts.predictions_eq hall]

theorem tallied_takeAll? {interval : Int} {reports : List (MatchedReport α)} {e : Engine α}
    {taken : List (MatchedReport α)} {s : State α} (h : Tallied e taken s) {next : Int}
    {ending : Int × State α} (hrun : takeAll? interval reports next s = some ending) :
    Tallied e (taken ++ reports) ending.2 := by
  induction reports generalizing taken next s with
  | nil =>
    obtain rfl := Option.some.inj hrun
    rwa [List.append_nil]
  | cons m rest ih =>
    rw [takeAll?] at hrun
    split at hrun
    · contradiction
    · rename_i n _
      have htaken := ih ((h.sweeps interval n next).takeReport m) hrun
      rwa [List.append_assoc] at htaken

omit [Scalar α] in
theorem dueSweeps?_isSome {interval next : Int} (hinterval : 0 < interval)
    (hnext : next ≤ Time.latest) (time : Int) :
    (dueSweeps? interval next time).isSome = true ↔ time < Time.latest := by
  rw [dueSweeps?]
  split
  · simp
    omega
  · split
    · simp
      omega
    · simp
      omega

omit [Scalar α] in
theorem afterSweeps_le {next : Int} (hnext : next ≤ Time.latest) (interval : Int) (n : Nat) :
    afterSweeps interval n next ≤ Time.latest := by
  induction n generalizing next with
  | zero => exact hnext
  | succ n ih => exact ih (Time.saturate_le _)

/-- The reports are all taken unless one of them is at the last time of all, which the sweeps
never pass. -/
theorem takeAll?_isSome {interval : Int} (hinterval : 0 < interval)
    (reports : List (MatchedReport α)) {next : Int} (hnext : next ≤ Time.latest) (s : State α) :
    (takeAll? interval reports next s).isSome = true ↔
      ∀ m ∈ reports, m.report.time < Time.latest := by
  induction reports generalizing next s with
  | nil => simp [takeAll?]
  | cons m rest ih =>
    have hdue := dueSweeps?_isSome hinterval hnext m.report.time
    rw [takeAll?, List.forall_mem_cons, ← hdue]
    cases dueSweeps? interval next m.report.time with
    | none => simp
    | some n =>
      rw [Option.isSome_some, eq_self, true_and]
      exact ih (afterSweeps_le hnext interval n) _

theorem run?_isSome (e : Engine α) (clock : Int) (reports : List (MatchedReport α)) :
    (run? e clock reports).isSome = true ↔ ∀ m ∈ reports, m.report.time < Time.latest := by
  cases reports with
  | nil => simp [run?]
  | cons m rest =>
    rw [run?, Option.isSome_map]
    exact takeAll?_isSome e.settings.sweepInterval_pos (m :: rest) (Time.saturate_le _) _

/-- A replay of any reports to any engine that keeps all its records comes to an end unless a
report is at the last time of all, and what its summary counts are the reports, those of them that
the timetable rejects, and the timeouts, arrivals and departures that were put on record meanwhile;
also the predictions if there is no horizon for their records. -/
theorem run?_summary {e : Engine α} {kept : Array (Record α)} (hkept : e.journal = .kept kept)
    (clock : Int) (reports : List (MatchedReport α)) :
    ((run? e clock reports).isSome = true ↔ ∀ m ∈ reports, m.report.time < Time.latest) ∧
    ∀ s, run? e clock reports = some s →
      ∃ records : List (Record α), s.engine.journal = .kept (kept ++ records) ∧
        Tallies e.settings e.timetable reports records s.summary := by
  refine ⟨run?_isSome e clock reports, fun s hrun => ?_⟩
  cases reports with
  | nil =>
    obtain rfl := Option.some.inj hrun
    obtain ⟨-, -, records, hjournal, hcounts⟩ := tallied_start e clock
    exact ⟨records, by rw [hjournal, hkept, Engine.appendAll_kept], hcounts⟩
  | cons m rest =>
    obtain ⟨⟨next, before⟩, htake, rfl⟩ := Option.map_eq_some_iff.mp hrun
    obtain ⟨-, -, records, hjournal, hcounts⟩ :=
      (tallied_takeAll? (tallied_start e clock) htake).sweepAt next
    exact ⟨records, by rw [hjournal, hkept, Engine.appendAll_kept], hcounts⟩

/-- A bus passes the first stop, is taken for being on a loop, then coupled, and then falls silent;
a tram is placed beyond the end of the line and later cannot be placed. Two of these six reports are
rejected, and both vehicles time out. -/
theorem run?_summary_busAndTram :
    let settings : Settings Rat := { Settings.standard with recordedHorizon := 0 }
    let e := Engine.start settings (.ofTrips [Engine.twoStops]) (.kept #[])
    let reported (vehicle : VehicleId) (time : Int) (coupled : Bool)
        (placement : Option (Placement Rat)) : MatchedReport Rat :=
      ⟨⟨vehicle, time, 0, 0, coupled⟩, placement, false⟩
    let reports := [reported "bus" 0 false (some ⟨"line", "block", 0, 0, 250, 500⟩),
      reported "tram" 10000 false (some ⟨"line", "block", 0, 2, 0, 500⟩),
      reported "bus" 60000 false (some ⟨"line", "block", 0, 1, 250, 500⟩),
      reported "bus" 70000 false (some ⟨"loop", "block", 0, 0, 250, 500⟩),
      reported "bus" 80000 true (some ⟨"loop", "block", 0, 0, 250, 500⟩),
      reported "tram" 440000 false none]
    ∃ s, run? e 0 reports = some s ∧ s.summary = ⟨6, 5, 2, 3, 2, 2, false⟩ ∧
      ∃ records : List (Record Rat), s.engine.journal = .kept ((#[] : Array (Record Rat)) ++ records) ∧
        Tallies settings (.ofTrips [Engine.twoStops]) reports records s.summary := by
  intro settings e reported reports
  obtain ⟨hends, hcounts⟩ := run?_summary (e := e) rfl 0 reports
  obtain ⟨s, hrun⟩ := Option.isSome_iff_exists.mp (hends.mpr (by decide +kernel))
  have hsummary : (run? e 0 reports).map (·.summary) = some ⟨6, 5, 2, 3, 2, 2, false⟩ := by
    decide +kernel
  rw [hrun] at hsummary
  exact ⟨s, hrun, Option.some.inj hsummary, hcounts s hrun⟩

end Replay

end NextStop
