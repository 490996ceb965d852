import Mathlib.Algebra.BigOperators.Group.Finset.Basic
import Mathlib.Algebra.BigOperators.Group.Finset.Sigma
import Mathlib.Algebra.Order.Group.Multiset
import NextStop.Proofs.Statistics.Rewriting
import NextStop.Statistics.Query

/-!
# Trip histories

A trip history holds what the logs of the selected live runs hold, every event as often as it is
logged, `Statistics.coe_tripHistory`. Which way the runs are selected does not matter for that. So
the history of a wide selection is made up of the histories of narrower ones as soon as every run
that it selects is selected by exactly one of those, `Statistics.coe_tripHistory_eq_sum`.
-/

namespace NextStop

namespace StopEvent

/-- Whether an event may stand before another one in a trip history: it is earlier; or, at the same
time, its stop comes first; or, at the same time and stop, it is not a departure before an
arrival. -/
def Precedes (a b : StopEvent) : Prop :=
  a.time < b.time ∨ a.time = b.time ∧
    (a.index < b.index ∨ a.index = b.index ∧ (b.kind = .arrival → a.kind = .arrival))

theorem before_eq_true_iff {a b : StopEvent} : before a b = true ↔ a.Precedes b := by
  have hkind : (a.kind.isArrival || b.kind.isDeparture) = true ↔
      (b.kind = .arrival → a.kind = .arrival) := by
    cases a.kind <;> cases b.kind <;> decide
  rw [before, Precedes]
  split
  · rw [decide_eq_true_eq]
    omega
  · split
    · rw [decide_eq_true_eq]
      omega
    · rw [hkind]
      grind

theorem Precedes.trans {a b c : StopEvent} (hab : a.Precedes b) (hbc : b.Precedes c) :
    a.Precedes c := by
  unfold Precedes at *
  grind

theorem precedes_or_precedes (a b : StopEvent) : a.Precedes b ∨ b.Precedes a := by
  unfold Precedes
  cases a.kind <;> grind

theorem before_trans (a b c : StopEvent) (hab : before a b = true) (hbc : before b c = true) :
    before a c = true :=
  before_eq_true_iff.mpr ((before_eq_true_iff.mp hab).trans (before_eq_true_iff.mp hbc))

theorem before_total (a b : StopEvent) : (before a b || before b a) = true := by
  rw [Bool.or_eq_true, before_eq_true_iff, before_eq_true_iff]
  exact precedes_or_precedes a b

end StopEvent

namespace Statistics

variable {α : Type}

/-! ## Live runs -/

/-- The runs whose logs have not expired. -/
def liveRuns (s : Statistics α) (now : Int) : Finset RunKey := (s.runs.keys now).toFinset

/-- The live runs of a selection. -/
def liveRunsOf (s : Statistics α) (now : Int) (selection : RunSelection) : Finset RunKey :=
  (s.liveRuns now).filter fun k => selection.selects k = true

theorem liveRunsOf_run (s : Statistics α) (now : Int) (trip : TripId) (date : Date) (start : Nat) :
    s.liveRunsOf now (.run ⟨trip, date, start⟩) =
      (s.liveRuns now).filter fun k => k.trip = trip ∧ k.serviceDate = date ∧ k.start = start :=
  Finset.filter_congr fun ⟨t, d, b⟩ _ => by simp [RunSelection.selects]

theorem liveRunsOf_onDay (s : Statistics α) (now : Int) (trip : TripId) (date : Date) :
    s.liveRunsOf now (.onDay trip date) =
      (s.liveRuns now).filter fun k => k.trip = trip ∧ k.serviceDate = date :=
  Finset.filter_congr fun k _ => by simp [RunSelection.selects]

theorem liveRunsOf_ofTrip (s : Statistics α) (now : Int) (trip : TripId) :
    s.liveRunsOf now (.ofTrip trip) = (s.liveRuns now).filter fun k => k.trip = trip :=
  Finset.filter_congr fun k _ => by simp [RunSelection.selects]

theorem liveRunsOf_ofDay (s : Statistics α) (now : Int) (date : Date) :
    s.liveRunsOf now (.ofDay date) = (s.liveRuns now).filter fun k => k.serviceDate = date :=
  Finset.filter_congr fun k _ => by simp [RunSelection.selects]

/-- The events in the log of a run; without a live log there are none. -/
def loggedFor (s : Statistics α) (now : Int) (k : RunKey) : List StopEvent :=
  ((s.run? now k).map EventLog.toList).getD []

/-- A run is live when the look-up finds its log. -/
theorem mem_liveRuns {s : Statistics α} {now : Int} {k : RunKey} :
    k ∈ s.liveRuns now ↔ (s.run? now k).isSome = true := by
  rw [liveRuns, List.mem_toFinset]
  exact (s.runs.keys_answered now).2 k

theorem loggedFor_of_notMem {s : Statistics α} {now : Int} {k : RunKey}
    (h : k ∉ s.liveRuns now) : s.loggedFor now k = [] := by
  rw [mem_liveRuns, Bool.not_eq_true, Option.isSome_eq_false_iff, Option.isNone_iff_eq_none] at h
  rw [loggedFor, h]
  rfl

/-! ## What a history holds -/

theorem flatMap_filterMap_run? (s : Statistics α) (now : Int) (ks : List RunKey) :
    (ks.filterMap (s.run? now)).flatMap EventLog.toList = ks.flatMap (s.loggedFor now) := by
  induction ks with
  | nil => rfl
  | cons k ks ih =>
    rw [List.flatMap_cons, ← ih, loggedFor]
    cases hlog : s.run? now k with
    | none => rw [List.filterMap_cons_none hlog]; rfl
    | some log => rw [List.filterMap_cons_some hlog]; rfl

theorem tripHistory_eq_mergeSort (s : Statistics α) (now : Int) (selection : RunSelection) :
    s.tripHistory now selection =
      (((s.runs.keys now).filter selection.selects).flatMap (s.loggedFor now)).mergeSort
        StopEvent.before := by
  rw [← flatMap_filterMap_run?]
  rfl

/-- A history holds what the logs of the selected live runs hold. -/
theorem coe_tripHistory (s : Statistics α) (now : Int) (selection : RunSelection) :
    (s.tripHistory now selection : Multiset StopEvent) =
      ∑ k ∈ s.liveRunsOf now selection, (s.loggedFor now k : Multiset StopEvent) := by
  have hnodup : ((s.runs.keys now).filter selection.selects).Nodup :=
    (s.runs.keys_answered now).1.filter _
  have hruns : s.liveRunsOf now selection =
      ((s.runs.keys now).filter selection.selects).toFinset := by
    rw [liveRunsOf, liveRuns, List.toFinset_filter]
  rw [tripHistory_eq_mergeSort, Multiset.coe_eq_coe.mpr (List.mergeSort_perm _ _), hruns,
    List.sum_toFinset _ hnodup]
  clear hruns hnodup
  induction (s.runs.keys now).filter selection.selects with
  | nil => rfl
  | cons k ks ih => rw [List.flatMap_cons, ← Multiset.coe_add, ih, List.map_cons, List.sum_cons]

theorem tripHistory_inOrder (s : Statistics α) (now : Int) (selection : RunSelection) :
    (s.tripHistory now selection).Pairwise StopEvent.Precedes := by
  rw [tripHistory_eq_mergeSort]
  exact (List.pairwise_mergeSort StopEvent.before_trans StopEvent.before_total _).imp
    StopEvent.before_eq_true_iff.mp

/-- The history of one run is its log, put into the order of a history. -/
theorem tripHistory_run (s : Statistics α) (now : Int) (k : RunKey) :
    s.tripHistory now (.run k) = (s.loggedFor now k).mergeSort StopEvent.before := by
  have hruns : ((s.runs.keys now).filter (RunSelection.run k).selects).flatMap
      (s.loggedFor now) = s.loggedFor now k := by
    have hequal : (s.runs.keys now).filter (RunSelection.run k).selects =
        (s.runs.keys now).filter (· == k) := rfl
    rw [hequal]
    by_cases hlive : k ∈ s.runs.keys now
    · rw [List.filter_beq, List.count_eq_one_of_mem (s.runs.keys_answered now).1 hlive]
      exact List.flatMap_singleton _ _
    · rw [List.filter_beq, List.count_eq_zero_of_not_mem hlive,
        loggedFor_of_notMem (mt List.mem_toFinset.mp hlive)]
      rfl
  rw [tripHistory_eq_mergeSort, hruns]

/-! ## Histories made up of others -/

/-- A selection is split by a part of the run keys. Its history is made up of the histories of the
selections that fix this part, for the values that occur among its live runs. -/
theorem coe_tripHistory_eq_sum {γ : Type} [DecidableEq γ] (s : Statistics α) (now : Int)
    {selection : RunSelection} (part : RunKey → γ) (narrow : γ → RunSelection)
    (hnarrow : ∀ c k, (narrow c).selects k = true ↔ selection.selects k = true ∧ part k = c) :
    (s.tripHistory now selection : Multiset StopEvent) =
      ∑ c ∈ (s.liveRunsOf now selection).image part,
        (s.tripHistory now (narrow c) : Multiset StopEvent) := by
  have hfiber : ∀ c, s.liveRunsOf now (narrow c) =
      (s.liveRunsOf now selection).filter fun k => part k = c := by
    intro c
    ext k
    simp only [liveRunsOf, Finset.mem_filter, hnarrow, and_assoc]
  simp only [coe_tripHistory, hfiber]
  exact (Finset.sum_fiberwise_of_maps_to (fun _ => Finset.mem_image_of_mem part) _).symm

/-- The history of a trip on a day is made up of those of its runs on that day, one for each start,
the history of a trip of those of its days, and the history of a day of those of its trips. The
history of a run is its log. Every history is in order and holds every event of the live logs that
it is about once. -/
theorem tripHistory_composes (s : Statistics α) (now : Int) :
    let history (selection : RunSelection) : Multiset StopEvent := s.tripHistory now selection
    let logged (ks : Finset RunKey) : Multiset StopEvent :=
      ∑ k ∈ ks, (s.loggedFor now k : Multiset StopEvent)
    let live := s.liveRuns now
    (∀ trip date, history (.onDay trip date) =
      ∑ start ∈ (live.filter fun k => k.trip = trip ∧ k.serviceDate = date).image RunKey.start,
        history (.run ⟨trip, date, start⟩)) ∧
    (∀ trip, history (.ofTrip trip) =
      ∑ date ∈ (live.filter fun k => k.trip = trip).image RunKey.serviceDate,
        history (.onDay trip date)) ∧
    (∀ date, history (.ofDay date) =
      ∑ trip ∈ (live.filter fun k => k.serviceDate = date).image RunKey.trip,
        history (.onDay trip date)) ∧
    (∀ k, s.tripHistory now (.run k) = (s.loggedFor now k).mergeSort StopEvent.before) ∧
    (∀ selection, (s.tripHistory now selection).Pairwise StopEvent.Precedes) ∧
    (∀ trip date start, history (.run ⟨trip, date, start⟩) =
      logged (live.filter fun k => k.trip = trip ∧ k.serviceDate = date ∧ k.start = start)) ∧
    (∀ trip date, history (.onDay trip date) =
      logged (live.filter fun k => k.trip = trip ∧ k.serviceDate = date)) ∧
    (∀ trip, history (.ofTrip trip) = logged (live.filter fun k => k.trip = trip)) ∧
    ∀ date, history (.ofDay date) = logged (live.filter fun k => k.serviceDate = date) := by
  intro history logged live
  have hlogged : ∀ selection, history selection = logged (s.liveRunsOf now selection) :=
    s.coe_tripHistory now
  refine ⟨fun trip date => ?_, fun trip => ?_, fun date => ?_, s.tripHistory_run now,
    s.tripHistory_inOrder now, fun trip date start => ?_, fun trip date => ?_, fun trip => ?_,
    fun date => ?_⟩
  · rw [← liveRunsOf_onDay]
    refine s.coe_tripHistory_eq_sum now RunKey.start _ fun start k => ?_
    obtain ⟨t, d, b⟩ := k
    simp [RunSelection.selects, and_assoc]
  · rw [← liveRunsOf_ofTrip]
    refine s.coe_tripHistory_eq_sum now RunKey.serviceDate _ fun date k => ?_
    simp [RunSelection.selects]
  · rw [← liveRunsOf_ofDay]
    refine s.coe_tripHistory_eq_sum now RunKey.trip _ fun trip k => ?_
    simp [RunSelection.selects, and_comm]
  · rw [← liveRunsOf_run]
    exact hlogged _
  · rw [← liveRunsOf_onDay]
    exact hlogged _
  · rw [← liveRunsOf_ofTrip]
    exact hlogged _
  · rw [← liveRunsOf_ofDay]
    exact hlogged _

end Statistics

end NextStop
