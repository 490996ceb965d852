import Mathlib.Logic.Relation
import NextStop.Proofs.Replay.Tally
import NextStop.Proofs.Replay.Timeline

/-!
# When a replay ends

The loop of a replay goes round once for every sweep and once for every report, `Stage.Step`. What
is still to come of a replay stays the same from one round to the next, so that its result is what
the loop leads to, if it leads to an end. Every sweep that is due moves the next one forward, but no
further than to the last time of all. So the loop ends whatever the times of the reports and their
order, unless one of them is at that last time, `Replay.terminates_iff`: there the sweeps go on for
ever, and the report is never taken.
-/

namespace NextStop

namespace Replay

variable {α : Type}

/-- Where the loop of a replay is. -/
structure Stage (α : Type) where
  /-- The reports to come. -/
  reports : List (MatchedReport α)
  /-- The time of the next sweep; none in a replay without reports. -/
  next : Option Int
  state : State α

namespace Stage

variable [Scalar α]

/-- Before the first report. -/
def start (e : Engine α) (clock : Int) (reports : List (MatchedReport α)) : Stage α where
  reports := reports
  next := reports.head?.map fun m => Time.later m.report.time e.settings.sweepInterval
  state := ⟨e, clock, .zero⟩

/-- After the last report, there is one more sweep. -/
def finish (a : Stage α) : State α :=
  match a.next with
  | none => a.state
  | some time => sweepAt a.state time

/-- One round of the loop: the next sweep if it is due by the first of the reports to come, and
otherwise that report. -/
inductive Step (interval : Int) : Stage α → Stage α → Prop
  | sweep {m : MatchedReport α} {rest : List (MatchedReport α)} {time : Int} {s : State α}
      (h : time ≤ m.report.time) :
      Step interval ⟨m :: rest, some time, s⟩
        ⟨m :: rest, some (Time.later time interval), checkQueue (sweepAt s time)⟩
  | report {m : MatchedReport α} {rest : List (MatchedReport α)} {next : Option Int} {s : State α}
      (h : ∀ time ∈ next, m.report.time < time) :
      Step interval ⟨m :: rest, next, s⟩ ⟨rest, next, takeReport s m⟩

/-- The loop comes to an end. -/
def Terminates (interval : Int) (a : Stage α) : Prop := Acc (fun b a => Step interval a b) a

/-- From one stage the loop leads to another one after some rounds. -/
def Leads (interval : Int) : Stage α → Stage α → Prop := Relation.ReflTransGen (Step interval)

/-- The loop goes on as long as there are reports. -/
theorem exists_step (interval : Int) {a : Stage α} (h : a.reports ≠ []) :
    ∃ b, Step interval a b := by
  obtain ⟨reports, next, s⟩ := a
  obtain ⟨m, rest, rfl⟩ := List.exists_cons_of_ne_nil h
  by_cases hdue : ∃ time ∈ next, time ≤ m.report.time
  · obtain ⟨time, rfl, htime⟩ := hdue
    exact ⟨_, .sweep htime⟩
  · refine ⟨_, .report fun time htime => ?_⟩
    by_contra hle
    exact hdue ⟨time, htime, not_lt.mp hle⟩

theorem Terminates.exists_end {interval : Int} {a : Stage α} (h : a.Terminates interval) :
    ∃ b, Leads interval a b ∧ b.reports = [] := by
  induction h with
  | intro a _ ih =>
    by_cases hreports : a.reports = []
    · exact ⟨a, .refl, hreports⟩
    · obtain ⟨b, hstep⟩ := exists_step interval hreports
      obtain ⟨c, hleads, hend⟩ := ih b hstep
      exact ⟨c, .head hstep hleads, hend⟩

/-! ## What the loop leads to -/

/-- What comes of the rest of a replay. -/
def outcome? (interval : Int) (a : Stage α) : Option (State α) :=
  match a.next with
  | none => some (a.reports.foldl takeReport a.state)
  | some next => (takeAll? interval a.reports next a.state).map fun (next, s) => sweepAt s next

theorem outcome?_start (e : Engine α) (clock : Int) (reports : List (MatchedReport α)) :
    (start e clock reports).outcome? e.settings.sweepInterval = run? e clock reports := by
  cases reports with
  | nil => rfl
  | cons m rest => rfl

theorem outcome?_of_end (interval : Int) {a : Stage α} (h : a.reports = []) :
    a.outcome? interval = some a.finish := by
  obtain ⟨reports, next, s⟩ := a
  obtain rfl : reports = [] := h
  cases next with
  | none => rfl
  | some time => rfl

/-- The next sweep is within the range of times. -/
def InRange (a : Stage α) : Prop := ∀ time ∈ a.next, Time.earliest ≤ time ∧ time ≤ Time.latest

omit [Scalar α] in
theorem inRange_start (e : Engine α) (clock : Int) (reports : List (MatchedReport α)) :
    (start e clock reports).InRange := by
  intro time htime
  obtain ⟨m, -, rfl⟩ := Option.map_eq_some_iff.mp htime
  exact ⟨Time.le_saturate _, Time.saturate_le _⟩

section Interval

variable {interval : Int}

theorem Step.inRange {a b : Stage α} (h : Step interval a b) (ha : a.InRange) : b.InRange := by
  cases h with
  | sweep hdue =>
    rintro time ⟨⟩
    exact ⟨Time.le_saturate _, Time.saturate_le _⟩
  | report hnext => exact ha

theorem Step.outcome?_eq (hinterval : 0 < interval) {a b : Stage α} (h : Step interval a b)
    (ha : a.InRange) : a.outcome? interval = b.outcome? interval := by
  cases h with
  | @sweep m rest time s hdue =>
    show (takeAll? interval (m :: rest) time s).map _ = _
    rw [takeAll?_of_le hinterval (ha time rfl).1 hdue]
    rfl
  | @report m rest next s hnext =>
    cases next with
    | none => rfl
    | some time =>
      show (takeAll? interval (m :: rest) time s).map _ = _
      rw [takeAll?_of_lt (hnext time rfl)]
      rfl

theorem Leads.outcome?_eq (hinterval : 0 < interval) {a b : Stage α} (h : Leads interval a b)
    (ha : a.InRange) : a.outcome? interval = b.outcome? interval := by
  induction h using Relation.ReflTransGen.head_induction_on with
  | refl => rfl
  | head hstep _ ih => exact (hstep.outcome?_eq hinterval ha).trans (ih (hstep.inRange ha))

/-! ## Where the loop ends -/

omit [Scalar α] in
theorem lt_later (hinterval : 0 < interval) {time : Int} (htime : time < Time.latest) :
    time < Time.later time interval := by
  unfold Time.later Time.saturate
  omega

/-- Before a report that is not at the last time of all the sweeps come to an end: each one that is
due moves the next one closer. -/
theorem terminates_of_lt (hinterval : 0 < interval) {reports : List (MatchedReport α)}
    (hreports : ∀ m ∈ reports, m.report.time < Time.latest) (next : Option Int) (s : State α) :
    Terminates interval ⟨reports, next, s⟩ := by
  induction reports generalizing next s with
  | nil => exact Acc.intro _ fun b hstep => nomatch hstep
  | cons m rest ih =>
    have htime := hreports m List.mem_cons_self
    replace ih := ih fun m' h => hreports m' (List.mem_cons_of_mem m h)
    cases next with
    | none =>
      refine Acc.intro _ fun b hstep => ?_
      cases hstep with
      | report _ => exact ih none _
    | some time =>
      induction hn : (m.report.time + 1 - time).toNat using Nat.strongRecOn generalizing time s with
      | ind n ihTime =>
        refine Acc.intro _ fun b hstep => ?_
        cases hstep with
        | sweep hdue =>
          have hlater := lt_later hinterval (Int.lt_of_le_of_lt hdue htime)
          exact ihTime _ (by omega) _ _ rfl
        | report _ => exact ih (some time) _

/-- No sweep passes a report at the last time of all. -/
theorem Terminates.lt_latest {a : Stage α} (h : a.Terminates interval) (ha : a.InRange)
    (hnext : a.next.isSome = true) : ∀ m ∈ a.reports, m.report.time < Time.latest := by
  induction h with
  | intro a _ ih =>
    obtain ⟨reports, next, s⟩ := a
    obtain ⟨time, rfl⟩ := Option.isSome_iff_exists.mp hnext
    cases reports with
    | nil => simp
    | cons m rest =>
      rcases Int.lt_or_le m.report.time time with hbefore | hdue
      · have hstep : Step interval ⟨m :: rest, some time, s⟩ ⟨rest, some time, takeReport s m⟩ :=
          .report (by rintro _ ⟨⟩; exact hbefore)
        exact List.forall_mem_cons.mpr
          ⟨Int.lt_of_lt_of_le hbefore (ha time rfl).2, ih _ hstep (hstep.inRange ha) rfl⟩
      · have hstep : Step interval ⟨m :: rest, some time, s⟩
            ⟨m :: rest, some (Time.later time interval), checkQueue (sweepAt s time)⟩ :=
          .sweep hdue
        have hrest := ih _ hstep (hstep.inRange ha) rfl
        exact hrest

end Interval

end Stage

variable [Scalar α]

omit [Scalar α] in
/-- From any time of the range on, the sweeps pass exactly the times before the last one of all. -/
theorem exists_lt_afterSweeps_iff {interval : Int} (hinterval : 0 < interval) {next : Int}
    (hnext : next ≤ Time.latest) (time : Int) :
    (∃ n, time < afterSweeps interval n next) ↔ time < Time.latest := by
  constructor
  · rintro ⟨n, hn⟩
    exact Int.lt_of_lt_of_le hn (afterSweeps_le hnext interval n)
  · intro htime
    induction hn : (time + 1 - next).toNat using Nat.strongRecOn generalizing next with
    | ind n ih =>
      rcases Int.lt_or_le time next with hbefore | hdue
      · exact ⟨0, hbefore⟩
      · have hlater := Stage.lt_later hinterval (Int.lt_of_le_of_lt hdue htime)
        obtain ⟨k, hk⟩ := ih (time + 1 - Time.later next interval).toNat (by omega)
          (Time.saturate_le _) rfl
        exact ⟨k + 1, hk⟩

/-- Whatever the engine and its polling interval, and whatever the times of the reports and their
order, the loop of a replay comes to an end unless a report is at the last time of all; and where it
ends, that is the result of the replay. For from any time on, the sweeps pass every time but that
one. -/
theorem terminates_iff (e : Engine α) (clock : Int) (reports : List (MatchedReport α)) :
    let interval := e.settings.sweepInterval
    let start := Stage.start e clock reports
    (start.Terminates interval ↔ ∀ m ∈ reports, m.report.time < Time.latest) ∧
      (∀ s, run? e clock reports = some s ↔
        ∃ last, start.Leads interval last ∧ last.reports = [] ∧ last.finish = s) ∧
      ∀ next ≤ Time.latest, ∀ time,
        (∃ n, time < afterSweeps interval n next) ↔ time < Time.latest := by
  intro interval start
  have hinterval : 0 < interval := e.settings.sweepInterval_pos
  have hrange : start.InRange := Stage.inRange_start e clock reports
  have hends : start.Terminates interval ↔ ∀ m ∈ reports, m.report.time < Time.latest := by
    constructor
    · intro hterminates
      cases reports with
      | nil => simp
      | cons m rest => exact hterminates.lt_latest hrange rfl
    · exact fun hreports => Stage.terminates_of_lt hinterval hreports _ _
  have houtcome : ∀ {last : Stage α}, start.Leads interval last → last.reports = [] →
      run? e clock reports = some last.finish := by
    intro last hleads hlast
    rw [← Stage.outcome?_start, hleads.outcome?_eq hinterval hrange,
      Stage.outcome?_of_end interval hlast]
  refine ⟨hends, fun s => ?_, fun next hnext time => exists_lt_afterSweeps_iff hinterval hnext time⟩
  constructor
  · intro hrun
    have hall : ∀ m ∈ reports, m.report.time < Time.latest :=
      (run?_isSome e clock reports).mp (Option.isSome_of_eq_some hrun)
    obtain ⟨last, hleads, hlast⟩ := (hends.mpr hall).exists_end
    exact ⟨last, hleads, hlast, Option.some.inj ((houtcome hleads hlast).symm.trans hrun)⟩
  · rintro ⟨last, hleads, hlast, rfl⟩
    exact houtcome hleads hlast

/-- Two reports a moment before the last time of all and at the first one, in this order, are taken
after finitely many sweeps. A report at the last time is not: there the sweeps go on for ever. -/
theorem terminates_iff_lastMoment :
    let e : Engine Rat := .start .standard .empty (.kept #[])
    let interval := e.settings.sweepInterval
    let reported (time : Int) : MatchedReport Rat := ⟨⟨"bus", time, 0, 0, false⟩, none, false⟩
    let before := [reported (Time.latest - 1), reported Time.earliest]
    let last := [reported Time.latest]
    (Stage.start e 0 before).Terminates interval ∧
      (∃ n, Time.latest - 1 < afterSweeps interval n Time.earliest) ∧
      ¬(Stage.start e 0 last).Terminates interval ∧ run? e 0 last = none := by
  intro e interval reported before last
  obtain ⟨hbefore, -, hsweeps⟩ := terminates_iff e 0 before
  obtain ⟨hlast, -, -⟩ := terminates_iff e 0 last
  have hends : (Stage.start e 0 before).Terminates interval := hbefore.mpr (by decide +kernel)
  have hendless : ¬(Stage.start e 0 last).Terminates interval := fun h =>
    Int.lt_irrefl _ (hlast.mp h (reported Time.latest) List.mem_cons_self)
  refine ⟨hends, (hsweeps _ (by decide) _).mpr (by decide), hendless, ?_⟩
  decide +kernel

end Replay

end NextStop
