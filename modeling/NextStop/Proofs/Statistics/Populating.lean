import Mathlib.Data.List.Nodup
import NextStop.Proofs.StableSort
import NextStop.Proofs.Statistics.Histories

/-!
# Populating the statistics

A history is fed into the statistics by windows of time: the events of a window, of the routes that
count, oldest first. What is fed in is a function of the events of each time and their order,
`Statistics.atTime_admitted`. So neighbouring windows can be joined, events of other routes make no
difference, and neither does the order of a history without simultaneous events.
-/

namespace NextStop

namespace EventLog

/-- A window has all events of the times in it, and no others. -/
theorem atTime_window (t first past : Int) (events : List StopEvent) :
    atTime t (Statistics.window first past events) =
      if first ≤ t ∧ t < past then atTime t events else [] := by
  rw [atTime, Statistics.window, List.filter_filter]
  split
  · rename_i hin
    refine List.filter_congr fun e _ => ?_
    by_cases ht : e.time = t <;> simp [ht, hin]
  · rename_i hout
    refine List.filter_eq_nil_iff.mpr fun e _ htest => hout ?_
    simp only [Bool.and_eq_true, beq_iff_eq, decide_eq_true_eq] at htest
    obtain ⟨rfl, hin⟩ := htest
    exact hin

end EventLog

namespace Statistics

variable {α : Type}

/-! ## The events that are fed in -/

/-- It does not matter whether events of routes that do not count are left out before the events are
sorted or after. -/
theorem admitted_eq (settings : Settings α) (events : List StopEvent) :
    admitted settings events =
      (events.filter fun e => settings.routeCounts e.route).mergeSort (·.time ≤ ·.time) :=
  StableSort.filter_mergeSort (StableSort.key_total StopEvent.time)
    (StableSort.key_trans StopEvent.time) _ events

theorem inOrder_admitted (settings : Settings α) (events : List StopEvent) :
    EventLog.InOrder (admitted settings events) := by
  rw [admitted_eq]
  exact EventLog.inOrder_mergeSort _

theorem mem_admitted {settings : Settings α} {events : List StopEvent} {e : StopEvent} :
    e ∈ admitted settings events ↔ e ∈ events ∧ settings.routeCounts e.route = true := by
  rw [admitted, List.mem_filter, List.mem_mergeSort]

theorem length_admitted (settings : Settings α) (events : List StopEvent) :
    (admitted settings events).length =
      (events.filter fun e => settings.routeCounts e.route).length := by
  rw [admitted_eq, List.length_mergeSort]

/-- The events of a time are fed in as the history has them. -/
theorem atTime_admitted (settings : Settings α) (t : Int) (events : List StopEvent) :
    EventLog.atTime t (admitted settings events) =
      (EventLog.atTime t events).filter fun e => settings.routeCounts e.route := by
  rw [admitted_eq, EventLog.atTime_mergeSort, EventLog.atTime, EventLog.atTime, List.filter_comm]

/-- What is fed in for two windows that meet is what is fed in for the window of both. -/
theorem admitted_window_append (settings : Settings α) {a b c : Int} (hab : a ≤ b) (hbc : b ≤ c)
    (history : List StopEvent) :
    admitted settings (window a b history) ++ admitted settings (window b c history) =
      admitted settings (window a c history) := by
  have hbounds : ∀ {first past : Int} {e : StopEvent},
      e ∈ admitted settings (window first past history) → first ≤ e.time ∧ e.time < past := by
    intro first past e he
    have htest := (List.mem_filter.mp (mem_admitted.mp he).1).2
    rwa [Bool.and_eq_true, decide_eq_true_eq, decide_eq_true_eq] at htest
  refine EventLog.eq_of_inOrder ?_ (inOrder_admitted settings _) fun t => ?_
  · refine List.pairwise_append.mpr ⟨inOrder_admitted settings _, inOrder_admitted settings _, ?_⟩
    intro d hd e he
    have hbefore := (hbounds hd).2
    have hfrom := (hbounds he).1
    omega
  · -- a time lies in at most one of the two windows
    rw [EventLog.atTime_append, atTime_admitted, atTime_admitted, atTime_admitted,
      EventLog.atTime_window, EventLog.atTime_window, EventLog.atTime_window]
    by_cases hfirst : a ≤ t ∧ t < b
    · rw [if_pos hfirst, if_neg (by omega), if_pos (by omega), List.filter_nil, List.append_nil]
    · rw [if_neg hfirst, List.filter_nil, List.nil_append]
      by_cases hsecond : b ≤ t ∧ t < c
      · rw [if_pos hsecond, if_pos (by omega)]
      · rw [if_neg hsecond, if_neg (by omega)]

/-- Events of routes that do not count can be left out of a history. -/
theorem admitted_window_filter (settings : Settings α) (first past : Int)
    (history : List StopEvent) :
    admitted settings (window first past (history.filter fun e => settings.routeCounts e.route)) =
      admitted settings (window first past history) := by
  have hswap : window first past (history.filter fun e => settings.routeCounts e.route) =
      (window first past history).filter fun e => settings.routeCounts e.route :=
    List.filter_comm ..
  rw [admitted_eq, admitted_eq, hswap, List.filter_filter]
  simp only [Bool.and_self]

/-- If no two events of a history are simultaneous, their order in it makes no difference. -/
theorem admitted_window_perm (settings : Settings α) (first past : Int)
    {history other : List StopEvent} (hperm : other.Perm history)
    (hnodup : (history.map (·.time)).Nodup) :
    admitted settings (window first past other) =
      admitted settings (window first past history) := by
  have hfed : (admitted settings (window first past other)).Perm
      (admitted settings (window first past history)) := by
    rw [admitted_eq, admitted_eq]
    exact (List.mergeSort_perm _ _).trans
      (((hperm.filter _).filter _).trans (List.mergeSort_perm _ _).symm)
  have hmem : ∀ {e : StopEvent}, e ∈ admitted settings (window first past history) →
      e ∈ history := fun he => (List.mem_filter.mp (mem_admitted.mp he).1).1
  refine hfed.eq_of_pairwise ?_ (inOrder_admitted settings _) (inOrder_admitted settings _)
  intro d e hd he hde hed
  exact List.inj_on_of_nodup_map hnodup (hmem (hfed.mem_iff.mp hd)) (hmem he)
    (Int.le_antisymm hde hed)

/-! ## Populating -/

variable [Scalar α]

theorem populateFrom_eq_feed (s : Statistics α) (now : Int) (history : List StopEvent)
    (first past : Int) :
    s.populateFrom now history first past =
      (s.feed now (admitted s.settings (window first past history)),
        (admitted s.settings (window first past history)).length) :=
  rfl

/-- Only what is fed in matters. -/
theorem populateFrom_congr {s : Statistics α} {history other : List StopEvent} {first past : Int}
    (h : admitted s.settings (window first past other) =
      admitted s.settings (window first past history)) (now : Int) :
    s.populateFrom now other first past = s.populateFrom now history first past := by
  rw [populateFrom_eq_feed, populateFrom_eq_feed, h]

/-- Populating from two windows that meet is populating from the window of both, in what the
statistics are and in how many events are fed in. Events of routes that do not count can be left
out of the history, and if no two of its events are simultaneous, they can be in any order. -/
theorem populateFrom_history (s : Statistics α) (now : Int) (history : List StopEvent) :
    (∀ a b c, a ≤ b → b ≤ c →
      let r₁ := s.populateFrom now history a b
      let r₂ := r₁.1.populateFrom now history b c
      let r := s.populateFrom now history a c
      r₂.1 = r.1 ∧ r₁.2 + r₂.2 = r.2) ∧
    (∀ first past,
      s.populateFrom now (history.filter fun e => s.settings.routeCounts e.route) first past =
        s.populateFrom now history first past) ∧
    ((history.map (·.time)).Nodup → ∀ other : List StopEvent, other.Perm history →
      ∀ first past,
        s.populateFrom now other first past = s.populateFrom now history first past) := by
  refine ⟨fun a b c hab hbc => ?_, fun first past => ?_, fun hnodup other hperm first past => ?_⟩
  · have happend := admitted_window_append s.settings hab hbc history
    simp only [populateFrom_eq_feed, feed_settings]
    constructor
    · rw [← feed_append, happend]
    · rw [← List.length_append, happend]
  · exact populateFrom_congr (admitted_window_filter s.settings first past history) now
  · exact populateFrom_congr (admitted_window_perm s.settings first past hperm hnodup) now

/-- Three events of two routes, one of which does not count. They can be fed in one after the other,
in either order of the history, and without the ferry. -/
theorem populateFrom_history_busAndFerry :
    let seen (vehicle : VehicleId) (route : RouteId) (kind : StopEventKind) (time : Int) :
        StopEvent :=
      ⟨vehicle, "line", route, none, "block", "market", 1, time, kind, Date.ofDays 0, 0, false,
        none⟩
    let history := [seen "bus" "1" .departure 30, seen "ferry" "2" .arrival 20,
      seen "bus" "1" .arrival 10]
    let s : Statistics Rat := .empty { Settings.standard with excludedRoutes := ["2"] }
    let whole := s.populateFrom 40 history 0 40
    (history.map (·.time)).Nodup ∧ history.reverse.Perm history ∧ whole.2 = 2 ∧
      ((s.populateFrom 40 history 0 20).1.populateFrom 40 history 20 40).1 = whole.1 ∧
      s.populateFrom 40 history.reverse 0 40 = whole ∧
      s.populateFrom 40 [seen "bus" "1" .departure 30, seen "bus" "1" .arrival 10] 0 40 =
        whole := by
  intro seen history s whole
  have hnodup : (history.map (·.time)).Nodup := by decide
  have hperm : history.reverse.Perm history := List.reverse_perm history
  obtain ⟨happend, hfilter, hany⟩ := populateFrom_history s 40 history
  refine ⟨hnodup, hperm, ?_, ?_, ?_, ?_⟩
  · exact (length_admitted s.settings (window 0 40 history)).trans rfl
  · exact (happend 0 20 40 (by decide) (by decide)).1
  · exact hany hnodup history.reverse hperm 0 40
  · exact hfilter 0 40

end Statistics

end NextStop
