import Mathlib.Data.List.Pairwise
import Mathlib.Data.List.Sort
import Mathlib.Tactic.Ring
import NextStop.Proofs.Engine.Alarm
import NextStop.Proofs.Engine.Coherence
import NextStop.Replay

/-!
# The timeline of a replay

The reports of a replay and the sweeps between them make up one timeline, `Replay.timeline`, in
which a sweep stands before the reports of its own time. The nested loop of a replay goes through
the merge of the two lists, whatever their order, `Replay.takeAll?_eq_foldl`. As long as no moment
lies before the one it comes after, the clock reads the time of each moment when the engine is
called, and a replay is a run of the calls of its timeline, `Replay.run?_timeline`.
-/

namespace NextStop

namespace Replay

variable {α : Type}

/-- What happens to the engine in a replay. -/
inductive Moment (α : Type) where
  | sweep (time : Int)
  | report (m : MatchedReport α)

namespace Moment

def time : Moment α → Int
  | sweep time => time
  | report m => m.report.time

def isSweep : Moment α → Bool
  | sweep _ => true
  | report _ => false

def report? : Moment α → Option (MatchedReport α)
  | sweep _ => none
  | report m => some m

def sweep? : Moment α → Option Int
  | sweep time => some time
  | report _ => none

/-- The call of a moment, made at the time of the moment. -/
def call : Moment α → Int × Engine.Call α
  | sweep time => (time, .sweep)
  | report m => (m.report.time, .report m)

/-- Moments are ordered by time, and sweeps come before the reports of their time. -/
def precedes (a b : Moment α) : Bool :=
  decide (a.time < b.time ∨ a.time = b.time ∧ (a.isSweep ∨ !b.isSweep))

theorem precedes_iff {a b : Moment α} :
    a.precedes b = true ↔
      a.time < b.time ∨ a.time = b.time ∧ (a.isSweep = true ∨ b.isSweep = false) := by
  simp [precedes]

theorem le_of_precedes {a b : Moment α} (h : a.precedes b = true) : a.time ≤ b.time := by
  rcases precedes_iff.mp h with h | ⟨h, _⟩
  · exact Int.le_of_lt h
  · exact Int.le_of_eq h

theorem precedes_trans (a b c : Moment α) (hab : a.precedes b = true) (hbc : b.precedes c = true) :
    a.precedes c = true := by
  simp only [precedes_iff] at *
  rcases hab with hab | ⟨hab, hkind⟩ <;> rcases hbc with hbc | ⟨hbc, hkind'⟩
  · exact .inl (hab.trans hbc)
  · exact .inl (hbc ▸ hab)
  · exact .inl (hab ▸ hbc)
  · refine .inr ⟨hab.trans hbc, ?_⟩
    rcases hkind with ha | hb
    · exact .inl ha
    · rcases hkind' with hb' | hc
      · rw [hb] at hb'
        contradiction
      · exact .inr hc

theorem precedes_total (a b : Moment α) : (a.precedes b || b.precedes a) = true := by
  simp only [Bool.or_eq_true, precedes_iff]
  rcases lt_trichotomy a.time b.time with h | h | h
  · exact .inl (.inl h)
  · cases ha : a.isSweep
    · exact .inr (.inr ⟨h.symm, .inr rfl⟩)
    · exact .inl (.inr ⟨h, .inl rfl⟩)
  · exact .inr (.inl h)

end Moment

/-! ## Sweeps at regular times -/

/-- A number of times from a first one on, an interval apart. -/
def ticks (interval first : Int) (n : Nat) : List Int :=
  (List.range n).map fun k : Nat => first + (k : Int) * interval

theorem ticks_zero (interval first : Int) : ticks interval first 0 = [] := rfl

theorem ticks_succ (interval first : Int) (n : Nat) :
    ticks interval first (n + 1) = first :: ticks interval (first + interval) n := by
  rw [ticks, ticks, List.range_succ_eq_map, List.map_cons, List.map_map]
  congr 1
  · simp
  · apply List.map_congr_left
    intro k _
    simp only [Function.comp_apply, Nat.succ_eq_add_one]
    push_cast
    ring

theorem ticks_concat (interval first : Int) (n : Nat) :
    ticks interval first (n + 1) = ticks interval first n ++ [first + (n : Int) * interval] := by
  rw [ticks, ticks, List.range_succ, List.map_append, List.map_singleton]

theorem mem_ticks {interval first time : Int} {n : Nat} :
    time ∈ ticks interval first n ↔ ∃ k < n, first + (k : Int) * interval = time := by
  simp [ticks]

theorem pairwise_ticks {interval : Int} (hinterval : 0 < interval) (first : Int) (n : Nat) :
    (ticks interval first n).Pairwise (· < ·) := by
  rw [ticks, List.pairwise_map]
  refine List.pairwise_lt_range.imp fun {j k} hjk => ?_
  have := Int.mul_lt_mul_of_pos_right (Int.ofNat_lt.mpr hjk) hinterval
  omega

/-! ## Reports and sweeps on one timeline -/

/-- Reports and sweeps at given times, put together. -/
def merge (times : List Int) (reports : List (MatchedReport α)) : List (Moment α) :=
  List.merge (times.map .sweep) (reports.map .report) Moment.precedes

theorem merge_nil (reports : List (MatchedReport α)) : merge [] reports = reports.map .report :=
  List.nil_merge _

theorem merge_nil_right (times : List Int) :
    merge times ([] : List (MatchedReport α)) = times.map .sweep :=
  List.merge_right _

theorem merge_of_le {time : Int} {m : MatchedReport α} (h : time ≤ m.report.time)
    (times : List Int) (rest : List (MatchedReport α)) :
    merge (time :: times) (m :: rest) = .sweep time :: merge times (m :: rest) := by
  have hprecedes : (Moment.sweep time).precedes (.report m) = true := by
    rw [Moment.precedes_iff]
    rcases Int.lt_or_eq_of_le h with h | h
    · exact .inl h
    · exact .inr ⟨h, .inl rfl⟩
  simp only [merge, List.map_cons]
  rw [List.cons_merge_cons, if_pos hprecedes]

theorem merge_of_lt {time : Int} {m : MatchedReport α} (h : m.report.time < time)
    (times : List Int) (rest : List (MatchedReport α)) :
    merge (time :: times) (m :: rest) = .report m :: merge (time :: times) rest := by
  have hprecedes : ¬ (Moment.sweep time).precedes (.report m) = true := by
    rw [Moment.precedes_iff]
    simp only [Moment.time, Moment.isSweep]
    omega
  simp only [merge, List.map_cons]
  rw [List.cons_merge_cons, if_neg hprecedes]

/-- What holds of merges with one list empty, and of a merge if it holds without its first
moment, holds of all merges. -/
theorem merge_induction {P : List Int → List (MatchedReport α) → List (Moment α) → Prop}
    (reports_only : ∀ reports, P [] reports (reports.map .report))
    (sweeps_only : ∀ times, P times [] (times.map .sweep))
    (sweep_first : ∀ time times m rest, time ≤ m.report.time →
      P times (m :: rest) (merge times (m :: rest)) →
        P (time :: times) (m :: rest) (.sweep time :: merge times (m :: rest)))
    (report_first : ∀ time times m rest, m.report.time < time →
      P (time :: times) rest (merge (time :: times) rest) →
        P (time :: times) (m :: rest) (.report m :: merge (time :: times) rest))
    (times : List Int) (reports : List (MatchedReport α)) :
    P times reports (merge times reports) := by
  induction reports generalizing times with
  | nil => exact merge_nil_right (α := α) times ▸ sweeps_only times
  | cons m rest ihRest =>
    induction times with
    | nil => exact merge_nil (m :: rest) ▸ reports_only (m :: rest)
    | cons time times ihTimes =>
      rcases Int.lt_or_le m.report.time time with h | h
      · exact merge_of_lt h times rest ▸ report_first time times m rest h (ihRest (time :: times))
      · exact merge_of_le h times rest ▸ sweep_first time times m rest h ihTimes

theorem filterMap_report_merge (times : List Int) (reports : List (MatchedReport α)) :
    (merge times reports).filterMap Moment.report? = reports := by
  apply merge_induction (P := fun _ reports ms => ms.filterMap Moment.report? = reports)
  · intro reports
    rw [List.filterMap_map]
    exact List.filterMap_some
  · intro times
    rw [List.filterMap_map]
    exact List.filterMap_none times
  · intro time times m rest _ ih
    exact ih
  · intro time times m rest _ ih
    exact congrArg (m :: ·) ih

theorem filterMap_sweep_merge (times : List Int) (reports : List (MatchedReport α)) :
    (merge times reports).filterMap Moment.sweep? = times := by
  apply merge_induction (P := fun times _ ms => ms.filterMap Moment.sweep? = times)
  · intro reports
    rw [List.filterMap_map]
    exact List.filterMap_none reports
  · intro times
    rw [List.filterMap_map]
    exact List.filterMap_some
  · intro time times m rest _ ih
    exact congrArg (time :: ·) ih
  · intro time times m rest _ ih
    exact ih

/-- A sweep after all reports comes last. -/
theorem merge_concat {time : Int} {reports : List (MatchedReport α)}
    (hlast : ∀ m ∈ reports, m.report.time < time) (times : List Int) :
    merge (times ++ [time]) reports = merge times reports ++ [.sweep time] := by
  revert hlast
  apply merge_induction (P := fun times reports ms => (∀ m ∈ reports, m.report.time < time) →
    merge (times ++ [time]) reports = ms ++ [Moment.sweep time])
  · intro reports hlast
    induction reports with
    | nil => exact merge_nil_right [time]
    | cons m rest ih =>
      rw [List.nil_append, merge_of_lt (hlast m List.mem_cons_self)]
      exact congrArg (Moment.report m :: ·) (ih fun m' h => hlast m' (List.mem_cons_of_mem m h))
  · intro times _
    rw [merge_nil_right, List.map_append, List.map_singleton]
  · intro first times m rest h ih hlast
    rw [List.cons_append, merge_of_le h, ih hlast, List.cons_append]
  · intro first times m rest h ih hlast
    rw [List.cons_append, merge_of_lt h, ← List.cons_append,
      ih fun m' hm' => hlast m' (List.mem_cons_of_mem m hm'), List.cons_append]

/-- Lists in the order of their times are merged into one. -/
theorem pairwise_merge {times : List Int} {reports : List (MatchedReport α)}
    (htimes : times.Pairwise (· < ·))
    (hreports : reports.Pairwise (·.report.time ≤ ·.report.time)) :
    (merge times reports).Pairwise fun a b => a.precedes b = true := by
  apply List.pairwise_merge Moment.precedes_trans Moment.precedes_total
  · refine List.pairwise_map.mpr (htimes.imp fun {a b} h => ?_)
    exact Moment.precedes_iff.mpr (.inl h)
  · refine List.pairwise_map.mpr (hreports.imp fun {m m'} h => ?_)
    rw [Moment.precedes_iff]
    rcases Int.lt_or_eq_of_le h with h | h
    · exact .inl h
    · exact .inr ⟨h, .inr rfl⟩

/-! ## The timeline -/

/-- The time of the last of some reports. -/
def lastTime (first : MatchedReport α) (rest : List (MatchedReport α)) : Int :=
  ((first :: rest).getLast (List.cons_ne_nil first rest)).report.time

/-- The number of sweeps of a replay: those by the time of the last report, and one more. -/
def sweepCount (interval : Int) (first : MatchedReport α) (rest : List (MatchedReport α)) : Nat :=
  ((lastTime first rest - first.report.time) / interval).toNat + 1

/-- The timeline of a replay. -/
def timeline (interval : Int) (first : MatchedReport α) (rest : List (MatchedReport α)) :
    List (Moment α) :=
  merge (ticks interval (first.report.time + interval) (sweepCount interval first rest))
    (first :: rest)

theorem le_lastTime {first m : MatchedReport α} {rest : List (MatchedReport α)}
    (hsorted : (first :: rest).Pairwise (·.report.time ≤ ·.report.time))
    (hm : m ∈ first :: rest) : m.report.time ≤ lastTime first rest :=
  have : Std.Refl fun a b : MatchedReport α => a.report.time ≤ b.report.time := ⟨fun _ => le_rfl⟩
  hsorted.rel_getLast hm

theorem exists_lastTime (first : MatchedReport α) (rest : List (MatchedReport α)) :
    ∃ m ∈ first :: rest, m.report.time = lastTime first rest :=
  ⟨_, List.getLast_mem _, rfl⟩

/-- The time of the last sweep. -/
def endTime (interval : Int) (first : MatchedReport α) (rest : List (MatchedReport α)) : Int :=
  first.report.time + (sweepCount interval first rest : Int) * interval

theorem endTime_le {interval : Int} (hinterval : 0 < interval) (first : MatchedReport α)
    (rest : List (MatchedReport α)) (h : first.report.time ≤ lastTime first rest) :
    endTime interval first rest ≤ lastTime first rest + interval := by
  have hn := Int.ediv_mul_le (lastTime first rest - first.report.time)
    (Int.ne_of_gt hinterval)
  rw [endTime, sweepCount]
  push_cast
  rw [Int.toNat_of_nonneg (Int.ediv_nonneg (by omega) (by omega)), Int.add_mul]
  omega

theorem lastTime_lt_endTime {interval : Int} (hinterval : 0 < interval)
    (first : MatchedReport α) (rest : List (MatchedReport α))
    (h : first.report.time ≤ lastTime first rest) :
    lastTime first rest < endTime interval first rest := by
  have hn := Int.lt_ediv_add_one_mul_self (lastTime first rest - first.report.time) hinterval
  rw [endTime, sweepCount]
  push_cast
  rw [Int.toNat_of_nonneg (Int.ediv_nonneg (by omega) (by omega))]
  omega

theorem lt_endTime {interval : Int} (hinterval : 0 < interval) {first m : MatchedReport α}
    {rest : List (MatchedReport α)}
    (hsorted : (first :: rest).Pairwise (·.report.time ≤ ·.report.time))
    (hm : m ∈ first :: rest) : m.report.time < endTime interval first rest :=
  Int.lt_of_le_of_lt (le_lastTime hsorted hm)
    (lastTime_lt_endTime hinterval first rest (le_lastTime hsorted List.mem_cons_self))

/-- The last sweep is the last of the ticks. -/
theorem add_ticks_eq_endTime (interval : Int) (first : MatchedReport α)
    (rest : List (MatchedReport α)) :
    first.report.time + interval +
      ((sweepCount interval first rest - 1 : Nat) : Int) * interval =
        endTime interval first rest := by
  rw [endTime, sweepCount, Nat.add_sub_cancel]
  push_cast
  ring

theorem timeline_eq {interval : Int} (hinterval : 0 < interval) {first : MatchedReport α}
    {rest : List (MatchedReport α)}
    (hsorted : (first :: rest).Pairwise (·.report.time ≤ ·.report.time)) :
    timeline interval first rest =
      merge (ticks interval (first.report.time + interval) (sweepCount interval first rest - 1))
        (first :: rest) ++ [.sweep (endTime interval first rest)] := by
  have hlast : ∀ m ∈ first :: rest, m.report.time < endTime interval first rest := fun m hm =>
    lt_endTime hinterval hsorted hm
  rw [timeline]
  conv_lhs => rw [sweepCount, ticks_concat]
  rw [← add_ticks_eq_endTime] at hlast ⊢
  exact merge_concat hlast _

theorem pairwise_timeline {interval : Int} (hinterval : 0 < interval) {first : MatchedReport α}
    {rest : List (MatchedReport α)}
    (hsorted : (first :: rest).Pairwise (·.report.time ≤ ·.report.time)) :
    (timeline interval first rest).Pairwise fun a b => a.precedes b = true :=
  pairwise_merge (pairwise_ticks hinterval _ _) hsorted

/-- Nothing happens before the first report. -/
theorem le_of_mem_timeline {interval : Int} (hinterval : 0 < interval) {first : MatchedReport α}
    {rest : List (MatchedReport α)}
    (hsorted : (first :: rest).Pairwise (·.report.time ≤ ·.report.time)) {moment : Moment α}
    (h : moment ∈ timeline interval first rest) : first.report.time ≤ moment.time := by
  rcases List.mem_merge.mp h with hsweep | hreport
  · obtain ⟨time, htime, rfl⟩ := List.mem_map.mp hsweep
    obtain ⟨k, _, rfl⟩ := mem_ticks.mp htime
    have := Int.mul_nonneg (Int.natCast_nonneg k) (Int.le_of_lt hinterval)
    show first.report.time ≤ first.report.time + interval + (k : Int) * interval
    omega
  · obtain ⟨m, hm, rfl⟩ := List.mem_map.mp hreport
    rcases List.mem_cons.mp hm with rfl | hrest
    · exact Int.le_refl _
    · exact (List.pairwise_cons.mp hsorted).1 m hrest

/-- Every sweep but the last one is due by the last report. -/
theorem exists_report_of_mem_ticks {interval time : Int} (hinterval : 0 < interval)
    {first : MatchedReport α} {rest : List (MatchedReport α)}
    (htime : time ∈ ticks interval (first.report.time + interval)
      (sweepCount interval first rest - 1)) :
    ∃ m ∈ first :: rest, time ≤ m.report.time := by
  obtain ⟨k, hk, rfl⟩ := mem_ticks.mp htime
  obtain ⟨m, hm, hmlast⟩ := exists_lastTime first rest
  refine ⟨m, hm, ?_⟩
  have hquot := Int.ediv_mul_le (lastTime first rest - first.report.time)
    (Int.ne_of_gt hinterval)
  have hstep : ((k : Int) + 1) * interval ≤
      (lastTime first rest - first.report.time) / interval * interval := by
    refine Int.mul_le_mul_of_nonneg_right ?_ (by omega)
    rw [sweepCount] at hk
    omega
  rw [Int.add_mul, Int.one_mul] at hstep
  omega

/-! ## The loop goes through the merge -/

section

variable [Scalar α]

/-- What a replay does at a moment between the first report and the last sweep. -/
def occur (s : State α) : Moment α → State α
  | .sweep time => checkQueue (sweepAt s time)
  | .report m => takeReport s m

theorem dueSweeps?_of_le {interval next time : Int} (hinterval : 0 < interval)
    (hnext : next ≤ time) (htime : time < Time.latest) :
    dueSweeps? interval next time = (dueSweeps? interval (next + interval) time).map (· + 1) := by
  rw [dueSweeps?, if_neg (by omega), if_pos ⟨htime, hinterval⟩, dueSweeps?]
  split
  · rw [Int.ediv_eq_zero_of_lt (by omega) (by omega)]
    rfl
  · rw [if_pos ⟨htime, hinterval⟩, Option.map_some]
    have hshift : (time - next) / interval = (time - (next + interval)) / interval + 1 := by
      rw [← Int.add_mul_ediv_right _ 1 (by omega : interval ≠ 0)]
      congr 1
      omega
    have hnonneg : 0 ≤ (time - (next + interval)) / interval :=
      Int.ediv_nonneg (by omega) (by omega)
    rw [hshift]
    congr 2
    omega

/-- The sweep after one that is due may be due as well, or stand at the end of the range. -/
theorem dueSweeps?_later {interval next time : Int} (hinterval : 0 < interval)
    (hearliest : Time.earliest ≤ next) (hnext : next ≤ time) :
    dueSweeps? interval next time =
      (dueSweeps? interval (Time.later next interval) time).map (· + 1) := by
  rcases Int.lt_or_le time Time.latest with htime | htime
  · rw [dueSweeps?_of_le hinterval hnext htime]
    rcases Int.lt_or_le Time.latest (next + interval) with hlatest | hlatest
    · -- the sweep after that one is after the report, past the end of the range
      have hlater : Time.later next interval = Time.latest := by
        unfold Time.later Time.saturate
        omega
      rw [hlater, dueSweeps?, dueSweeps?, if_pos (by omega), if_pos htime]
    · rw [Time.later, Time.saturate_of_mem (by omega) hlatest]
  · have hlater : Time.later next interval ≤ Time.latest := Time.saturate_le _
    rw [dueSweeps?, if_neg (by omega), if_neg (by omega), dueSweeps?, if_neg (by omega),
      if_neg (by omega), Option.map_none]

/-- The first of the sweeps before a report. -/
theorem takeAll?_of_le {interval next : Int} {m : MatchedReport α} (hinterval : 0 < interval)
    (hearliest : Time.earliest ≤ next) (hnext : next ≤ m.report.time)
    (rest : List (MatchedReport α)) (s : State α) : takeAll? interval (m :: rest) next s =
      takeAll? interval (m :: rest) (Time.later next interval) (occur s (.sweep next)) := by
  rw [takeAll?, takeAll?, dueSweeps?_later hinterval hearliest hnext]
  cases dueSweeps? interval (Time.later next interval) m.report.time with
  | none => rfl
  | some n => rfl

/-- A report before the next sweep. -/
theorem takeAll?_of_lt {interval next : Int} {m : MatchedReport α}
    (hnext : m.report.time < next) (rest : List (MatchedReport α)) (s : State α) :
    takeAll? interval (m :: rest) next s =
      takeAll? interval rest next (occur s (.report m)) := by
  rw [takeAll?, dueSweeps?, if_pos hnext]
  rfl

/-- A replay goes through the merge of the reports and the sweeps due by one of them. -/
theorem takeAll?_eq_foldl {interval : Int} (hinterval : 0 < interval)
    (reports : List (MatchedReport α)) (n : Nat) (next : Int) (s : State α)
    (hearliest : Time.earliest ≤ next)
    (hdue : ∀ time ∈ ticks interval next n, ∃ m ∈ reports, time ≤ m.report.time)
    (hend : ∀ m ∈ reports, m.report.time < next + (n : Int) * interval)
    (hlatest : next + (n : Int) * interval ≤ Time.latest) :
    takeAll? interval reports next s = some (next + (n : Int) * interval,
      (merge (ticks interval next n) reports).foldl occur s) := by
  -- Along the merge: the first moment is a sweep if it is due by the first report, else the report.
  induction reports generalizing n next s with
  | nil =>
    cases n with
    | zero => simp [takeAll?, ticks_zero, merge_nil]
    | succ n =>
      obtain ⟨m, hm, _⟩ := hdue next (by rw [ticks_succ]; exact List.mem_cons_self)
      contradiction
  | cons m rest ihRest =>
    induction n generalizing next s with
    | zero =>
      have hnext : m.report.time < next := by simpa using hend m List.mem_cons_self
      rw [takeAll?_of_lt hnext, ihRest 0 next (occur s (.report m)) hearliest
        (fun time h => absurd h List.not_mem_nil)
        (fun m' h => hend m' (List.mem_cons_of_mem m h)) hlatest, ticks_zero, merge_nil, merge_nil]
      rfl
    | succ n ihTimes =>
      have hshift : next + ((n + 1 : Nat) : Int) * interval =
          next + interval + (n : Int) * interval := by
        push_cast
        ring
      have hn : 0 ≤ (n : Int) * interval := Int.mul_nonneg (Int.natCast_nonneg n) (by omega)
      rw [hshift] at hend hlatest ⊢
      rcases Int.lt_or_le m.report.time next with hnext | hnext
      · rw [takeAll?_of_lt hnext, ihRest (n + 1) next (occur s (.report m)) hearliest ?_ ?_ ?_,
          ticks_succ, merge_of_lt hnext, hshift]
        · rfl
        · intro time htime
          obtain ⟨m', hm', hle⟩ := hdue time htime
          rcases List.mem_cons.mp hm' with rfl | hrest
          · have : next ≤ time := by
              obtain ⟨k, _, rfl⟩ := mem_ticks.mp htime
              have := Int.mul_nonneg (Int.natCast_nonneg k) (by omega : 0 ≤ interval)
              omega
            omega
          · exact ⟨m', hrest, hle⟩
        · rw [hshift]
          exact fun m' h => hend m' (List.mem_cons_of_mem m h)
        · rwa [hshift]
      · have hlater : Time.later next interval = next + interval :=
          Time.saturate_of_mem (by omega) (by omega)
        have hm := hend m List.mem_cons_self
        rw [takeAll?_of_le hinterval hearliest hnext, hlater,
          ihTimes (next + interval) (occur s (.sweep next)) (by omega) ?_ hend hlatest,
          ticks_succ, merge_of_le hnext]
        · rfl
        · intro time htime
          exact hdue time (by rw [ticks_succ]; exact List.mem_cons_of_mem next htime)

/-! ## The clock reads the time of each moment -/

/-- What a replay does to the engine at a moment, the clock reading its time. -/
def pass (e : Engine α) : Moment α → Engine α
  | .sweep time => (e.perform (time, .sweep)).checkQueue
  | .report m => e.perform (m.report.time, .report m)

theorem sweepAt_of_le {s : State α} {time : Int} (h : s.clock ≤ time) :
    (sweepAt s time).engine = s.engine.perform (time, .sweep) ∧ (sweepAt s time).clock = time := by
  have hclock : max s.clock time = time := Int.max_eq_right h
  exact ⟨congrArg (fun now => (s.engine.sweep now).2) hclock, hclock⟩

theorem takeReport_of_le {s : State α} {m : MatchedReport α} (h : s.clock ≤ m.report.time) :
    (takeReport s m).engine = s.engine.perform (m.report.time, .report m) ∧
      (takeReport s m).clock = m.report.time := by
  have hclock : max s.clock m.report.time = m.report.time := Int.max_eq_right h
  exact ⟨congrArg (fun now => (s.engine.take now m).2) hclock, hclock⟩

theorem occur_of_le {s : State α} {moment : Moment α} (h : s.clock ≤ moment.time) :
    (occur s moment).engine = pass s.engine moment ∧ (occur s moment).clock = moment.time := by
  cases moment with
  | sweep time =>
    obtain ⟨hengine, hclock⟩ := sweepAt_of_le h
    exact ⟨congrArg Engine.checkQueue hengine, hclock⟩
  | report m => exact takeReport_of_le h

/-- The engine goes through moments in the order of their times by their calls, each at its own
time, and the clock stays behind what comes later. -/
theorem foldl_occur (bound : Int) {moments : List (Moment α)} {s : State α}
    (hsorted : moments.Pairwise (·.time ≤ ·.time))
    (hclock : ∀ moment ∈ moments, s.clock ≤ moment.time) (hstart : s.clock ≤ bound)
    (hbound : ∀ moment ∈ moments, moment.time ≤ bound) :
    (moments.foldl occur s).engine = moments.foldl pass s.engine ∧
      (moments.foldl occur s).clock ≤ bound := by
  induction moments generalizing s with
  | nil => exact ⟨rfl, hstart⟩
  | cons moment rest ih =>
    obtain ⟨hfirst, hrest⟩ := List.pairwise_cons.mp hsorted
    obtain ⟨hengine, htime⟩ := occur_of_le (hclock moment List.mem_cons_self)
    rw [List.foldl_cons, List.foldl_cons, ← hengine]
    apply ih hrest
    · intro later hlater
      exact htime ▸ hfirst later hlater
    · exact htime ▸ hbound moment List.mem_cons_self
    · exact fun later hlater => hbound later (List.mem_cons_of_mem moment hlater)

theorem pass_eq (e : Engine α) (moment : Moment α) :
    pass e moment = (e.perform moment.call).withAlarm (pass e moment).alarm := by
  cases moment <;> rfl

/-- But for the alarm, the checks of the queue change nothing. -/
theorem foldl_pass (e : Engine α) (moments : List (Moment α)) :
    moments.foldl pass e =
      (e.performAll (moments.map Moment.call)).withAlarm (moments.foldl pass e).alarm := by
  induction moments generalizing e with
  | nil => rfl
  | cons moment rest ih =>
    let alarm := (rest.foldl pass (pass e moment)).alarm
    calc rest.foldl pass (pass e moment)
        = ((pass e moment).performAll (rest.map Moment.call)).withAlarm alarm :=
          ih (pass e moment)
      _ = (((e.perform moment.call).performAll (rest.map Moment.call)).withAlarm
            (pass e moment).alarm).withAlarm alarm := by
          rw [← (e.perform moment.call).performAll_withAlarm, ← pass_eq]
      _ = (e.performAll ((moment :: rest).map Moment.call)).withAlarm alarm := rfl

/-! ## A replay -/

/-- A replay in the order of times goes through its timeline, the queue being checked after every
sweep but the last. -/
theorem run?_eq_pass {e : Engine α} {clock : Int} {first : MatchedReport α}
    {rest : List (MatchedReport α)}
    (hsorted : (first :: rest).Pairwise (·.report.time ≤ ·.report.time))
    (hearliest : Time.earliest ≤ first.report.time)
    (hlatest : lastTime first rest + e.settings.sweepInterval ≤ Time.latest)
    (hclock : clock ≤ first.report.time) :
    ∃ s, run? e clock (first :: rest) = some s ∧
      s.clock = endTime e.settings.sweepInterval first rest ∧
      s.engine = ((timeline e.settings.sweepInterval first rest).dropLast.foldl pass e).perform
        (endTime e.settings.sweepInterval first rest, .sweep) := by
  have hinterval := e.settings.sweepInterval_pos
  generalize hi : e.settings.sweepInterval = interval at *
  have hfirst : first.report.time ≤ lastTime first rest := le_lastTime hsorted List.mem_cons_self
  have hend := endTime_le hinterval first rest hfirst
  have hlater : Time.later first.report.time interval = first.report.time + interval :=
    Time.saturate_of_mem (by omega) (by omega)
  let moments := merge (ticks interval (first.report.time + interval)
    (sweepCount interval first rest - 1)) (first :: rest)
  have hmoments : timeline interval first rest =
      moments ++ [.sweep (endTime interval first rest)] := timeline_eq hinterval hsorted
  have hmem : ∀ moment ∈ moments, moment ∈ timeline interval first rest := fun moment h =>
    hmoments ▸ List.mem_append_left _ h
  have htake : takeAll? interval (first :: rest) (first.report.time + interval)
      ⟨e, clock, .zero⟩ =
        some (endTime interval first rest, moments.foldl occur ⟨e, clock, .zero⟩) := by
    rw [← add_ticks_eq_endTime]
    apply takeAll?_eq_foldl hinterval
    · omega
    · exact fun time => exists_report_of_mem_ticks hinterval
    · exact fun m hm => add_ticks_eq_endTime interval first rest ▸ lt_endTime hinterval hsorted hm
    · exact add_ticks_eq_endTime interval first rest ▸ Int.le_trans hend hlatest
  obtain ⟨hbefore, _, hlast⟩ :=
    List.pairwise_append.mp (hmoments ▸ pairwise_timeline hinterval hsorted)
  obtain ⟨hengine, hbehind⟩ := foldl_occur (endTime interval first rest)
    (s := ⟨e, clock, .zero⟩) (hbefore.imp Moment.le_of_precedes)
    (fun moment h => Int.le_trans hclock (le_of_mem_timeline hinterval hsorted (hmem moment h)))
    (Int.le_trans hclock (Int.le_of_lt (lt_endTime hinterval hsorted List.mem_cons_self)))
    (fun moment h => Moment.le_of_precedes (hlast moment h _ List.mem_cons_self))
  obtain ⟨hperform, hnow⟩ := sweepAt_of_le hbehind
  refine ⟨_, ?_, hnow, ?_⟩
  · rw [run?, hi, hlater, htake]
    rfl
  · rw [hperform, hengine, hmoments, List.dropLast_concat]

end

end Replay

end NextStop
