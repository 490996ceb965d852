import NextStop.Proofs.Statistics.Durations

/-!
# The durations of a history

A whole history can be asked which travel and dwell times it has, without putting a single event
into any statistics. Each ends with an event and begins with the latest one of the same run that may
begin it, `Statistics.span?`; `Statistics.spans` are those that belong under one key. If the events
come in the order of time, a history has, with one event more, the durations that it had and perhaps
one that ends with the new event, `Statistics.spans_concat`; and this one can be found in the log of
the run as it is by then, `Statistics.span?_of_log`.
-/

namespace NextStop

/-- The quantity whose durations end with a kind of event. -/
def Quantity.endingWith : StopEventKind → Quantity
  | .arrival => .travel
  | .departure => .dwell

theorem Quantity.Begins.eq_endingWith {q : Quantity} {first last : StopEvent}
    (h : q.Begins first last) : q = .endingWith last.kind := by
  cases q with
  | travel => rw [h.2.2.1, endingWith]
  | dwell => rw [h.2.2.1, endingWith]

/-- Whether a duration lies within its bounds. -/
def Settings.durationPlausible {α : Type} (s : Settings α) : Quantity → Int → Bool
  | .travel, duration => s.travelPlausible duration
  | .dwell, duration => s.dwellPlausible duration

namespace EventLog

/-- In a log in order, the event that a duration begins with has the largest time of those that may
begin it. -/
theorem max?_time_eq {l : EventLog} (hl : InOrder l.toList) (q : Quantity) (last : StopEvent) :
    ((l.toList.filter fun first => q.Begins first last).map (·.time)).max? =
      (l.beginning? q last).map (·.time) := by
  cases hfirst : l.beginning? q last with
  | none =>
    have hnil : (l.toList.filter fun first => q.Begins first last) = [] := by
      refine List.filter_eq_nil_iff.mpr fun e he => ?_
      exact List.find?_eq_none.mp hfirst e (List.mem_reverse.mp he)
    rw [hnil]
    rfl
  | some first =>
    obtain ⟨hmem, hbegins, hlatest⟩ := begun_of_beginning? hl hfirst
    refine List.max?_eq_some_iff.mpr ⟨?_, fun time htime => ?_⟩
    · exact List.mem_map_of_mem (List.mem_filter.mpr ⟨hmem, decide_eq_true hbegins⟩)
    · obtain ⟨e, he, rfl⟩ := List.mem_map.mp htime
      obtain ⟨he, hbegins'⟩ := List.mem_filter.mp he
      exact hlatest e he (of_decide_eq_true hbegins')

/-- The duration that ends with an event, as the log of its run shows it. -/
def span? {α : Type} (s : Settings α) (l : EventLog) (q : Quantity) (last : StopEvent) :
    Option Int :=
  ((l.beginning? q last).map fun first => last.time - first.time).filter (s.durationPlausible q)

end EventLog

namespace Statistics

variable {α : Type}

/-- The duration that ends with an event of a history: the time since the latest event of its run
that may begin it, if that is plausible. -/
def span? (s : Statistics α) (q : Quantity) (history : List StopEvent) (last : StopEvent) :
    Option Int :=
  let first? := ((history.filter fun first =>
    s.runKey first = s.runKey last ∧ q.Begins first last).map (·.time)).max?
  (first?.map fun time => last.time - time).filter (s.settings.durationPlausible q)

/-- The durations of a history that belong under a key, in the order of the events that end
them. -/
def spans (s : Statistics α) (k : PathKey) (history : List StopEvent) : List Int :=
  (history.filter fun last => s.eventPathKey k.quantity last = k).filterMap
    (s.span? k.quantity history)

/-- Only the settings matter. -/
theorem spans_eq_of_settings {s s' : Statistics α} (h : s'.settings = s.settings) :
    s'.spans = s.spans := by
  have hkey : s'.eventPathKey = s.eventPathKey := by
    funext q e
    rw [eventPathKey, eventPathKey, pathKey, pathKey, timeBucket, timeBucket, h]
  have hspan : s'.span? = s.span? := by
    funext q history last
    rw [span?, span?, runKey_eq_of_settings h, h]
  funext k history
  rw [spans, spans, hkey, hspan]

/-- If the log of a run has the events of the run in order, it shows the duration. -/
theorem span?_of_log (s : Statistics α) {l : EventLog} (hl : EventLog.InOrder l.toList)
    {history : List StopEvent} {last : StopEvent}
    (hlog : l.toList = history.filter fun e => s.runKey e == s.runKey last) (q : Quantity) :
    s.span? q history last = l.span? s.settings q last := by
  have hfilter : (history.filter fun first =>
      s.runKey first = s.runKey last ∧ q.Begins first last) =
      l.toList.filter fun first => q.Begins first last := by
    rw [hlog, List.filter_filter]
    refine List.filter_congr fun e _ => ?_
    rw [Bool.eq_iff_iff, decide_eq_true_eq, Bool.and_eq_true, decide_eq_true_eq, beq_iff_eq]
    exact and_comm
  rw [span?, EventLog.span?, hfilter, EventLog.max?_time_eq hl, Option.map_map]
  rfl

/-- A later event begins no duration that ends before it. -/
theorem span?_concat (s : Statistics α) (q : Quantity) (history : List StopEvent)
    {last e : StopEvent} (hlate : last.time < e.time) :
    s.span? q (history ++ [e]) last = s.span? q history last := by
  have hnot : ¬(s.runKey e = s.runKey last ∧ q.Begins e last) := by
    rintro ⟨-, hbegins⟩
    have hle := hbegins.1
    omega
  rw [span?, span?, List.filter_append, List.filter_cons_of_neg (by simpa using hnot),
    List.filter_nil, List.append_nil]

/-- A duration that ends with an event is of the quantity that ends with its kind. -/
theorem eq_endingWith_of_span? {s : Statistics α} {q : Quantity} {history : List StopEvent}
    {last : StopEvent} {duration : Int} (h : s.span? q history last = some duration) :
    q = .endingWith last.kind := by
  obtain ⟨hmap, -⟩ := Option.filter_eq_some_iff.mp h
  obtain ⟨time, hmax, -⟩ := Option.map_eq_some_iff.mp hmap
  obtain ⟨first, hfirst, -⟩ := List.mem_map.mp (List.max?_eq_some_iff.mp hmax).1
  exact (of_decide_eq_true (List.mem_filter.mp hfirst).2).2.eq_endingWith

/-- With a later event, a history has the durations that it had, and that which ends with the event
if it belongs under the key. -/
theorem spans_concat (s : Statistics α) (k : PathKey) {history : List StopEvent} {e : StopEvent}
    (hlate : ∀ last ∈ history, last.time < e.time) :
    s.spans k (history ++ [e]) = s.spans k history ++
      if s.eventPathKey (.endingWith e.kind) e = k then
        (s.span? (.endingWith e.kind) (history ++ [e]) e).toList else [] := by
  have hold : (history.filter fun last => s.eventPathKey k.quantity last = k).filterMap
      (s.span? k.quantity (history ++ [e])) = s.spans k history := by
    refine List.filterMap_congr fun last hlast => ?_
    exact s.span?_concat k.quantity history (hlate last (List.mem_filter.mp hlast).1)
  rw [spans, List.filter_append, List.filterMap_append, hold, List.filter_singleton]
  congr 1
  by_cases hq : k.quantity = .endingWith e.kind
  · rw [hq]
    by_cases hk : s.eventPathKey (.endingWith e.kind) e = k
    · rw [decide_eq_true hk, cond_true, if_pos hk, List.filterMap_cons]
      cases s.span? (.endingWith e.kind) (history ++ [e]) e <;> rfl
    · rw [decide_eq_false hk, cond_false, if_neg hk, List.filterMap_nil]
  · -- the event ends no duration of the other quantity
    have hkey : s.eventPathKey (.endingWith e.kind) e ≠ k := by
      rintro rfl
      exact hq rfl
    have hnone : s.span? k.quantity (history ++ [e]) e = none := by
      cases hspan : s.span? k.quantity (history ++ [e]) e with
      | none => rfl
      | some duration => exact absurd (eq_endingWith_of_span? hspan) hq
    rw [if_neg hkey]
    cases decide (s.eventPathKey k.quantity e = k) with
    | false => rfl
    | true => rw [cond_true, List.filterMap_cons_none hnone, List.filterMap_nil]

end Statistics

end NextStop
