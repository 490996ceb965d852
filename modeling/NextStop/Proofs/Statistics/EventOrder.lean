import NextStop.Proofs.StableSort
import NextStop.Statistics.EventLog

/-!
# The order of event logs

Pushing events one by one sorts them by time, and events of equal times keep the order in which
they were pushed. Both facts together leave no choice: lists in the order of time that agree, for
every time, on the events of that time are the same, `EventLog.eq_of_inOrder`. So a log is the
stable sort of what was pushed, whatever the order in which it came.

What a log finds is told by the pushes alone: of those that are looked for, the one with the
greatest time, and among these the last one, `EventLog.IsLatest`.
-/

namespace NextStop

namespace EventLog

/-- Events in the order of time. -/
def InOrder (events : List StopEvent) : Prop := events.Pairwise fun a b => a.time ≤ b.time

/-- The events of one time. -/
def atTime (t : Int) (events : List StopEvent) : List StopEvent :=
  events.filter fun e => e.time == t

theorem mem_atTime {t : Int} {events : List StopEvent} {e : StopEvent} :
    e ∈ atTime t events ↔ e ∈ events ∧ e.time = t := by
  rw [atTime, List.mem_filter, beq_iff_eq]

theorem atTime_append (t : Int) (xs ys : List StopEvent) :
    atTime t (xs ++ ys) = atTime t xs ++ atTime t ys :=
  List.filter_append xs ys

theorem atTime_cons_self (e : StopEvent) (events : List StopEvent) :
    atTime e.time (e :: events) = e :: atTime e.time events :=
  List.filter_cons_of_pos (beq_self_eq_true _)

theorem atTime_cons_of_ne {t : Int} {e : StopEvent} (h : e.time ≠ t) (events : List StopEvent) :
    atTime t (e :: events) = atTime t events :=
  List.filter_cons_of_neg (by simpa using h)

/-- The order of time does not tell events of one time apart. -/
theorem filter_tied_notLater (e : StopEvent) (events : List StopEvent) :
    events.filter (StableSort.tied (fun a b : StopEvent => a.time ≤ b.time) e) =
      atTime e.time events := by
  refine List.filter_congr fun d _ => ?_
  rw [Bool.eq_iff_iff, StableSort.tied_iff, decide_eq_true_eq, decide_eq_true_eq, beq_iff_eq]
  omega

/-- The order of time and the events of every time determine a list. -/
theorem eq_of_inOrder {xs ys : List StopEvent} (hx : InOrder xs) (hy : InOrder ys)
    (hsame : ∀ t, atTime t xs = atTime t ys) : xs = ys := by
  refine StableSort.eq_of_tied (StableSort.key_total StopEvent.time) (hx.imp decide_eq_true)
    (hy.imp decide_eq_true) ?_
  intro e
  rw [filter_tied_notLater, filter_tied_notLater, hsame]

/-! ## Pushing -/

theorem mem_insert {e d : StopEvent} {events : List StopEvent} :
    d ∈ insert e events ↔ d = e ∨ d ∈ events := by
  induction events with
  | nil => simp [insert]
  | cons c rest ih =>
    rw [insert]
    split
    · exact List.mem_cons
    · rw [List.mem_cons, ih, List.mem_cons]
      exact or_left_comm

/-- An event is put in front of all those of its own time, among events that are newest first. -/
theorem atTime_insert (t : Int) (e : StopEvent) (events : List StopEvent) :
    atTime t (insert e events) = atTime t [e] ++ atTime t events := by
  induction events with
  | nil => exact (List.append_nil _).symm
  | cons d rest ih =>
    rw [insert]
    split
    · exact atTime_append t [e] (d :: rest)
    · rename_i hlate
      by_cases hd : d.time = t
      · have he : e.time ≠ t := by omega
        subst hd
        rw [atTime_cons_self, ih, atTime_cons_of_ne he, atTime_cons_self]
        rfl
      · rw [atTime_cons_of_ne hd, ih, atTime_cons_of_ne hd]

theorem insert_newestFirst {e : StopEvent} {events : List StopEvent}
    (h : events.Pairwise fun a b => b.time ≤ a.time) :
    (insert e events).Pairwise fun a b => b.time ≤ a.time := by
  induction events with
  | nil => exact List.pairwise_singleton _ _
  | cons d rest ih =>
    obtain ⟨hd, hrest⟩ := List.pairwise_cons.mp h
    rw [insert]
    split
    · rename_i hle
      refine List.pairwise_cons.mpr ⟨?_, h⟩
      intro c hc
      rcases List.mem_cons.mp hc with rfl | hc
      · exact hle
      · exact Int.le_trans (hd c hc) hle
    · rename_i hlate
      refine List.pairwise_cons.mpr ⟨?_, ih hrest⟩
      intro c hc
      rcases mem_insert.mp hc with rfl | hc
      · omega
      · exact hd c hc

theorem inOrder_push {l : EventLog} (h : InOrder l.toList) (e : StopEvent) :
    InOrder (l.push e).toList := by
  rw [InOrder, toList, List.pairwise_reverse] at h ⊢
  exact insert_newestFirst h

theorem atTime_reverse (t : Int) (events : List StopEvent) :
    atTime t events.reverse = (atTime t events).reverse :=
  List.filter_reverse

/-- A pushed event comes after all those of its time. -/
theorem atTime_push (t : Int) (l : EventLog) (e : StopEvent) :
    atTime t (l.push e).toList = atTime t l.toList ++ atTime t [e] := by
  rw [toList, push, atTime_reverse, atTime_insert, List.reverse_append, ← atTime_reverse,
    ← atTime_reverse]
  rfl

theorem inOrder_foldl_push {l : EventLog} (h : InOrder l.toList) (events : List StopEvent) :
    InOrder (events.foldl push l).toList := by
  induction events generalizing l with
  | nil => exact h
  | cons e rest ih => exact ih (inOrder_push h e)

theorem atTime_foldl_push (t : Int) (l : EventLog) (events : List StopEvent) :
    atTime t (events.foldl push l).toList = atTime t l.toList ++ atTime t events := by
  induction events generalizing l with
  | nil => exact (List.append_nil _).symm
  | cons e rest ih =>
    rw [List.foldl_cons, ih, atTime_push, List.append_assoc, ← atTime_append]
    rfl

/-! ## Sorting -/

theorem inOrder_mergeSort (events : List StopEvent) :
    InOrder (events.mergeSort (·.time ≤ ·.time)) :=
  (List.pairwise_mergeSort (StableSort.key_trans StopEvent.time)
    (StableSort.key_total StopEvent.time) events).imp of_decide_eq_true

/-- Sorting keeps the order of the events of one time. -/
theorem atTime_mergeSort (t : Int) (events : List StopEvent) :
    atTime t (events.mergeSort (·.time ≤ ·.time)) = atTime t events := by
  have hequal : (atTime t events).Pairwise fun a b => decide (a.time ≤ b.time) = true := by
    refine List.pairwise_of_forall_mem_list ?_
    intro a ha b hb
    exact decide_eq_true (Int.le_of_eq ((mem_atTime.mp ha).2.trans (mem_atTime.mp hb).2.symm))
  rw [atTime, StableSort.filter_mergeSort (StableSort.key_total StopEvent.time)
    (StableSort.key_trans StopEvent.time)]
  exact List.mergeSort_of_pairwise hequal

/-- The log of events that are pushed one after the other. -/
def ofEvents (events : List StopEvent) : EventLog := events.foldl push empty

/-- It holds the stable sort of the events. -/
theorem toList_ofEvents (events : List StopEvent) :
    (ofEvents events).toList = events.mergeSort (·.time ≤ ·.time) := by
  have hempty : InOrder empty.toList := List.Pairwise.nil
  refine eq_of_inOrder (inOrder_foldl_push hempty events) (inOrder_mergeSort events) ?_
  intro t
  rw [ofEvents, atTime_foldl_push, atTime_mergeSort]
  rfl

/-- The log of events, if there are any. -/
def ofEvents? (events : List StopEvent) : Option EventLog :=
  if events = [] then none else some (ofEvents events)

/-- Events in the order in which a log has them; without events there is no log. -/
def sorted? (events : List StopEvent) : Option (List StopEvent) :=
  if events = [] then none else some (events.mergeSort (·.time ≤ ·.time))

theorem map_toList_ofEvents? (events : List StopEvent) :
    (ofEvents? events).map toList = sorted? events := by
  rw [ofEvents?, sorted?]
  split
  · rfl
  · rw [Option.map_some, toList_ofEvents]

theorem isSome_ofEvents? (events : List StopEvent) :
    (ofEvents? events).isSome = true ↔ events ≠ [] := by
  cases events with
  | nil => simp [ofEvents?]
  | cons e rest => simp [ofEvents?]

theorem ofEvents?_concat (events : List StopEvent) (e : StopEvent) :
    ofEvents? (events ++ [e]) = some (((ofEvents? events).getD empty).push e) := by
  rw [ofEvents?, if_neg (by simp), ofEvents, List.foldl_append]
  cases events with
  | nil => rfl
  | cons d rest => rfl

/-! ## The latest event -/

theorem latest?_eq_getLast? (l : EventLog) (p : StopEvent → Bool) :
    l.latest? p = (l.toList.filter p).getLast? := by
  rw [latest?, toList, List.filter_reverse, List.getLast?_reverse, List.head?_filter]

/-- In the log of some events, the newest one that satisfies a test is the last of those events
that satisfy it, once they are sorted. -/
theorem latest?_ofEvents (events : List StopEvent) (p : StopEvent → Bool) :
    (ofEvents events).latest? p =
      ((events.filter p).mergeSort (·.time ≤ ·.time)).getLast? := by
  rw [latest?_eq_getLast?, toList_ofEvents,
    StableSort.filter_mergeSort (StableSort.key_total StopEvent.time)
      (StableSort.key_trans StopEvent.time)]

/-- The last one of sorted events has the greatest time, and of those of its time it was the last
before they were sorted. -/
theorem latest_of_getLast?_mergeSort {events : List StopEvent} {e : StopEvent}
    (h : (events.mergeSort (·.time ≤ ·.time)).getLast? = some e) :
    (∀ d ∈ events, d.time ≤ e.time) ∧ (atTime e.time events).getLast? = some e := by
  obtain ⟨earlier, hsorted⟩ := List.getLast?_eq_some_iff.mp h
  have horder := inOrder_mergeSort events
  rw [hsorted] at horder
  constructor
  · intro d hd
    have hmem : d ∈ events.mergeSort (·.time ≤ ·.time) := List.mem_mergeSort.mpr hd
    rw [hsorted] at hmem
    rcases List.mem_append.mp hmem with hd | hd
    · exact (List.pairwise_append.mp horder).2.2 d hd e (List.mem_singleton_self e)
    · obtain rfl := List.mem_singleton.mp hd
      exact Int.le_refl _
  · rw [← atTime_mergeSort, hsorted, atTime_append, atTime_cons_self]
    exact List.getLast?_concat

/-- Of the events that satisfy `P`, one has the greatest time, and of those of its time it is the
last. -/
def IsLatest (events : List StopEvent) (P : StopEvent → Prop) (e : StopEvent) : Prop :=
  ∃ earlier later : List StopEvent, events = earlier ++ e :: later ∧ P e ∧
    (∀ d ∈ earlier, P d → d.time ≤ e.time) ∧ ∀ d ∈ later, P d → d.time < e.time

/-- Where the last one of sorted events was before they were sorted: nothing before it is later in
time, and all that is behind it is earlier. -/
theorem split_of_getLast?_mergeSort {events : List StopEvent} {e : StopEvent}
    (h : (events.mergeSort (·.time ≤ ·.time)).getLast? = some e) :
    ∃ earlier later : List StopEvent, events = earlier ++ e :: later ∧
      (∀ d ∈ earlier, d.time ≤ e.time) ∧ ∀ d ∈ later, d.time < e.time := by
  obtain ⟨hgreatest, hlast⟩ := latest_of_getLast?_mergeSort h
  obtain ⟨front, htied⟩ := List.getLast?_eq_some_iff.mp hlast
  obtain ⟨before, rest, rfl, -, hrest⟩ := List.filter_eq_append_iff.mp htied
  obtain ⟨between, later, rfl, -, -, hlater⟩ := List.filter_eq_cons_iff.mp hrest
  rw [← List.append_assoc] at hgreatest
  refine ⟨before ++ between, later, (List.append_assoc ..).symm, ?_, ?_⟩
  · intro d hd
    exact hgreatest d (List.mem_append_left _ hd)
  · intro d hd
    have hle := hgreatest d (List.mem_append_right _ (List.mem_cons_of_mem _ hd))
    have hne : d.time ≠ e.time := by simpa using List.filter_eq_nil_iff.mp hlater d hd
    omega

/-- An event in such a place is the last one when the events are sorted. -/
theorem getLast?_mergeSort_of_split {earlier later : List StopEvent} {e : StopEvent}
    (hearlier : ∀ d ∈ earlier, d.time ≤ e.time) (hlater : ∀ d ∈ later, d.time < e.time) :
    ((earlier ++ e :: later).mergeSort (·.time ≤ ·.time)).getLast? = some e := by
  have hmem : e ∈ earlier ++ e :: later := List.mem_append_right _ List.mem_cons_self
  cases hsorted : ((earlier ++ e :: later).mergeSort (·.time ≤ ·.time)).getLast? with
  | none =>
    have hsort : e ∈ (earlier ++ e :: later).mergeSort (·.time ≤ ·.time) :=
      List.mem_mergeSort.mpr hmem
    rw [List.getLast?_eq_none_iff.mp hsorted] at hsort
    contradiction
  | some d =>
    obtain ⟨hgreatest, hlast⟩ := latest_of_getLast?_mergeSort hsorted
    have hle : d.time ≤ e.time := by
      rcases List.mem_append.mp (mem_atTime.mp (List.mem_of_getLast? hlast)).1 with hd | hd
      · exact hearlier d hd
      · rcases List.mem_cons.mp hd with rfl | hd
        · exact Int.le_refl _
        · exact Int.le_of_lt (hlater d hd)
    -- both have the greatest time, and `e` is the last of that time
    have htime : d.time = e.time := Int.le_antisymm hle (hgreatest e hmem)
    have hafter : atTime e.time later = [] :=
      List.filter_eq_nil_iff.mpr fun c hc => by simpa using Int.ne_of_lt (hlater c hc)
    rw [htime, atTime_append, atTime_cons_self, hafter, List.getLast?_append_of_ne_nil _
      (List.cons_ne_nil _ _), List.getLast?_singleton] at hlast
    exact hlast.symm

/-- The newest event in a log that satisfies a test is the latest of those that were pushed. -/
theorem latest?_eq_some_iff {events : List StopEvent} {p : StopEvent → Bool} {e : StopEvent} :
    (ofEvents events).latest? p = some e ↔ IsLatest events (p · = true) e := by
  rw [latest?_ofEvents, IsLatest]
  constructor
  · intro h
    obtain ⟨front, rest, hfilter, hearlier, hlater⟩ := split_of_getLast?_mergeSort h
    obtain ⟨before, back, rfl, rfl, hback⟩ := List.filter_eq_append_iff.mp hfilter
    obtain ⟨between, later, rfl, hbetween, hp, rfl⟩ := List.filter_eq_cons_iff.mp hback
    refine ⟨before ++ between, later, (List.append_assoc ..).symm, hp, ?_, ?_⟩
    · intro d hd hpd
      rcases List.mem_append.mp hd with hd | hd
      · exact hearlier d (List.mem_filter.mpr ⟨hd, hpd⟩)
      · exact absurd hpd (hbetween d hd)
    · intro d hd hpd
      exact hlater d (List.mem_filter.mpr ⟨hd, hpd⟩)
  · rintro ⟨earlier, later, rfl, hp, hearlier, hlater⟩
    rw [List.filter_append, List.filter_cons_of_pos hp]
    refine getLast?_mergeSort_of_split ?_ ?_
    · intro d hd
      obtain ⟨hd, hpd⟩ := List.mem_filter.mp hd
      exact hearlier d hd hpd
    · intro d hd
      obtain ⟨hd, hpd⟩ := List.mem_filter.mp hd
      exact hlater d hd hpd

theorem mem_newestFirst_ofEvents {events : List StopEvent} {e : StopEvent} :
    e ∈ (ofEvents events).newestFirst ↔ e ∈ events := by
  rw [← List.mem_reverse, ← toList, toList_ofEvents, List.mem_mergeSort]

theorem latest?_eq_none_iff {events : List StopEvent} {p : StopEvent → Bool} :
    (ofEvents events).latest? p = none ↔ ∀ e ∈ events, ¬p e = true := by
  rw [latest?, List.find?_eq_none]
  simp only [mem_newestFirst_ofEvents]

/-- A departure from the stop before that of `last`, not later than `last`. -/
def LeavesFor (last e : StopEvent) : Prop :=
  e.kind = .departure ∧ e.index + 1 = last.index ∧ e.time ≤ last.time

/-- An arrival at the stop of `last`, not later than `last`. -/
def Reaches (last e : StopEvent) : Prop :=
  e.kind = .arrival ∧ e.index = last.index ∧ e.time ≤ last.time

theorem leavesFor_iff {last e : StopEvent} (h : last.index ≠ 0) :
    (e.time ≤ last.time && e.isDepartureAt (last.index - 1)) = true ↔ LeavesFor last e := by
  have hindex : e.index = last.index - 1 ↔ e.index + 1 = last.index := by omega
  cases hkind : e.kind <;>
    simp [StopEvent.isDepartureAt, StopEventKind.isDeparture, LeavesFor, hkind, hindex, and_comm]

theorem reaches_iff {last e : StopEvent} :
    (e.time ≤ last.time && e.isArrivalAt last.index) = true ↔ Reaches last e := by
  cases hkind : e.kind <;>
    simp [StopEvent.isArrivalAt, StopEventKind.isArrival, Reaches, hkind, and_comm]

/-- Nothing leaves for the first stop. -/
theorem not_leavesFor_of_first {last e : StopEvent} (h : last.index = 0) : ¬LeavesFor last e :=
  fun hleaves => Nat.succ_ne_zero e.index (hleaves.2.1.trans h)

theorem previousDeparture?_eq_some_iff {events : List StopEvent} {last e : StopEvent} :
    (ofEvents events).previousDeparture? last = some e ↔ IsLatest events (LeavesFor last) e := by
  rw [previousDeparture?]
  split
  · rename_i hfirst
    refine iff_of_false (fun h => nomatch h) ?_
    rintro ⟨-, -, -, hleaves, -⟩
    exact not_leavesFor_of_first hfirst hleaves
  · rename_i hfirst
    rw [latest?_eq_some_iff]
    simp only [leavesFor_iff hfirst]

theorem previousDeparture?_eq_none_iff {events : List StopEvent} {last : StopEvent} :
    (ofEvents events).previousDeparture? last = none ↔
      last.index = 0 ∨ ∀ e ∈ events, ¬LeavesFor last e := by
  rw [previousDeparture?]
  split
  · rename_i hfirst
    exact iff_of_true rfl (Or.inl hfirst)
  · rename_i hfirst
    rw [latest?_eq_none_iff, or_iff_right hfirst]
    simp only [leavesFor_iff hfirst]

/-- A log is the stable sort of what was pushed, and for every event it finds the latest
departure for its stop and the latest arrival at it. -/
theorem ofEvents_sorts_and_finds (events : List StopEvent) :
    (ofEvents events).toList = events.mergeSort (·.time ≤ ·.time) ∧
    (∀ t, atTime t (ofEvents events).toList = atTime t events) ∧
    ∀ last : StopEvent,
      (∀ e, (ofEvents events).previousDeparture? last = some e ↔
        IsLatest events (LeavesFor last) e) ∧
      ((ofEvents events).previousDeparture? last = none ↔
        last.index = 0 ∨ ∀ e ∈ events, ¬LeavesFor last e) ∧
      (∀ e, (ofEvents events).matchingArrival? last = some e ↔
        IsLatest events (Reaches last) e) ∧
      ((ofEvents events).matchingArrival? last = none ↔ ∀ e ∈ events, ¬Reaches last e) := by
  refine ⟨toList_ofEvents events, ?_, fun last => ⟨fun e => previousDeparture?_eq_some_iff,
    previousDeparture?_eq_none_iff, ?_, ?_⟩⟩
  · intro t
    rw [toList_ofEvents, atTime_mergeSort]
  · intro e
    rw [matchingArrival?, latest?_eq_some_iff]
    simp only [reaches_iff]
  · rw [matchingArrival?, latest?_eq_none_iff]
    simp only [reaches_iff]

end EventLog

end NextStop
