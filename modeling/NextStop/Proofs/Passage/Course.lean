import Mathlib.Data.List.Count
import Mathlib.Data.List.Nodup
import NextStop.Passage

/-!
# The course of a trip

Every trip has the same course of milestones: arrival at stop 0, departure from stop 0, arrival
at stop 1, and so on. A placement has some number of them behind it, its rank. What happened
between two sightings is the segment of the course between their ranks, so that a run of
sightings goes through the course without a gap and without a repetition, however many sightings
there are.
-/

namespace NextStop

/-- Something that happens once on every trip: an arrival at a stop or a departure from it. -/
abbrev Milestone := StopEventKind × Nat

/-- The milestone that an event reports. -/
def StopEvent.milestone (e : StopEvent) : Milestone := (e.kind, e.index)

namespace Placement

variable {α : Type} [Scalar α]

/-- The number of milestones behind a placement. At a stop these are all up to the arrival;
between stops they are all up to the departure from the stop before. -/
def rank (p : Placement α) (trip : Trip α) (radius : α) : Nat :=
  match p.atStop? trip radius with
  | some stop => 2 * stop + 1
  | none => 2 * p.index

theorem rank_of_atStop {p : Placement α} {trip : Trip α} {radius : α} {stop : Nat}
    (h : p.atStop? trip radius = some stop) : p.rank trip radius = 2 * stop + 1 := by
  rw [rank, h]

theorem rank_of_between {p : Placement α} {trip : Trip α} {radius : α}
    (h : p.atStop? trip radius = none) : p.rank trip radius = 2 * p.index := by
  rw [rank, h]

theorem ahead_of_atStop {p : Placement α} {trip : Trip α} {radius : α} {stop : Nat}
    (h : p.atStop? trip radius = some stop) : p.ahead trip radius = stop + 1 := by
  rw [ahead, h]

theorem ahead_of_between {p : Placement α} {trip : Trip α} {radius : α}
    (h : p.atStop? trip radius = none) : p.ahead trip radius = p.index := by
  rw [ahead, h]

theorem behind_of_atStop {p : Placement α} {trip : Trip α} {radius : α} {stop : Nat}
    (h : p.atStop? trip radius = some stop) : p.behind trip radius = stop := by
  rw [behind, h]

theorem behind_of_between {p : Placement α} {trip : Trip α} {radius : α}
    (h : p.atStop? trip radius = none) : p.behind trip radius = p.index := by
  rw [behind, h]

/-- The stop that a vehicle is at is one of its trip. -/
theorem atStop?_lt {p : Placement α} {trip : Trip α} {radius : α} {stop : Nat}
    (h : p.atStop? trip radius = some stop) : stop < trip.stopPaths.length := by
  have hlt : ∀ {i : Nat} {path : StopPath α}, trip.stopPath? i = some path →
      i < trip.stopPaths.length := by
    intro i path hi
    by_contra hge
    rw [(trip.stopPath?_eq_none_iff i).mpr (by omega)] at hi
    contradiction
  obtain ⟨ending, hending, h⟩ := Option.bind_eq_some_iff.mp h
  split at h
  · obtain rfl := Option.some.inj h
    exact hlt hending
  · split at h
    · contradiction
    · obtain ⟨starting, hstarting, h⟩ := Option.bind_eq_some_iff.mp h
      split at h
      · obtain rfl := Option.some.inj h
        exact hlt hstarting
      · contradiction

/-- A placement within its trip has no stops behind it that the trip does not have. -/
theorem behind_le_length {p : Placement α} {trip : Trip α} {radius : α}
    (h : p.index < trip.stopPaths.length) : p.behind trip radius ≤ trip.stopPaths.length := by
  cases hat : p.atStop? trip radius with
  | none => rw [behind_of_between hat]; exact Nat.le_of_lt h
  | some stop => rw [behind_of_atStop hat]; exact Nat.le_of_lt (atStop?_lt hat)

theorem rank_le_ahead (p : Placement α) (trip : Trip α) (radius : α) :
    p.rank trip radius ≤ 2 * p.ahead trip radius := by
  cases h : p.atStop? trip radius with
  | none => exact Nat.le_of_eq (by rw [rank_of_between h, ahead_of_between h])
  | some stop => rw [rank_of_atStop h, ahead_of_atStop h]; omega

theorem behind_le_rank (p : Placement α) (trip : Trip α) (radius : α) :
    2 * p.behind trip radius ≤ p.rank trip radius := by
  cases h : p.atStop? trip radius with
  | none => exact Nat.le_of_eq (by rw [rank_of_between h, behind_of_between h])
  | some stop => rw [rank_of_atStop h, behind_of_atStop h]; omega

/-- Unless a vehicle is still at its stop, every stop before the first one that was ahead is
behind it now. -/
theorem ahead_le_behind {p q : Placement α} {trip : Trip α} {radius : α}
    (h : p.rank trip radius ≤ q.rank trip radius)
    (hne : ¬((p.atStop? trip radius).isSome = true ∧
      p.atStop? trip radius = q.atStop? trip radius)) :
    p.ahead trip radius ≤ q.behind trip radius := by
  cases hp : p.atStop? trip radius with
  | none =>
    rw [rank_of_between hp] at h
    rw [ahead_of_between hp]
    cases hq : q.atStop? trip radius with
    | none => rw [rank_of_between hq] at h; rw [behind_of_between hq]; omega
    | some stop => rw [rank_of_atStop hq] at h; rw [behind_of_atStop hq]; omega
  | some left =>
    rw [rank_of_atStop hp] at h
    rw [ahead_of_atStop hp]
    cases hq : q.atStop? trip radius with
    | none => rw [rank_of_between hq] at h; rw [behind_of_between hq]; omega
    | some stop =>
      rw [rank_of_atStop hq] at h
      rw [behind_of_atStop hq]
      have hstop : left ≠ stop := by
        rintro rfl
        exact hne ⟨by rw [hp]; rfl, hp.trans hq.symm⟩
      omega

end Placement

namespace Passage

variable {α : Type}

/-! ## Segments of the course -/

/-- The milestones in their order. -/
def course (n : Nat) : Milestone := (if n % 2 = 0 then .arrival else .departure, n / 2)

/-- The milestones from number `a` on and before number `b`. -/
def segment (a b : Nat) : List Milestone := (List.range' a (b - a)).map course

theorem course_arrival (stop : Nat) : course (2 * stop) = (.arrival, stop) := by
  rw [course, if_pos (by omega), show 2 * stop / 2 = stop by omega]

theorem course_departure (stop : Nat) : course (2 * stop + 1) = (.departure, stop) := by
  rw [course, if_neg (by omega), show (2 * stop + 1) / 2 = stop by omega]

theorem course_injective : Function.Injective course := by
  intro m n h
  obtain ⟨hkind, hstop⟩ := Prod.mk.inj h
  have hmod : m % 2 = n % 2 := by
    by_cases hm : m % 2 = 0 <;> by_cases hn : n % 2 = 0 <;> simp [hm, hn] at hkind <;> omega
  omega

theorem segment_self (a : Nat) : segment a a = [] := by
  rw [segment, Nat.sub_self, List.range'_zero, List.map_nil]

theorem segment_succ (a : Nat) : segment a (a + 1) = [course a] := by
  rw [segment, Nat.add_sub_cancel_left, List.range'_one, List.map_singleton]

theorem segment_append {a b c : Nat} (hab : a ≤ b) (hbc : b ≤ c) :
    segment a b ++ segment b c = segment a c := by
  obtain ⟨m, rfl⟩ := Nat.exists_eq_add_of_le hab
  obtain ⟨n, rfl⟩ := Nat.exists_eq_add_of_le hbc
  rw [segment, segment, segment, ← List.map_append, Nat.add_sub_cancel_left,
    Nat.add_sub_cancel_left, Nat.add_assoc, Nat.add_sub_cancel_left, List.range'_append_1]

theorem segment_stop (stop : Nat) :
    segment (2 * stop) (2 * (stop + 1)) = [(.arrival, stop), (.departure, stop)] := by
  have hsplit := segment_append (Nat.le_succ (2 * stop)) (Nat.le_succ (2 * stop + 1))
  rw [segment_succ, segment_succ, course_arrival, course_departure] at hsplit
  exact hsplit.symm

/-- A segment holds each of its milestones once. -/
theorem count_segment (a b n : Nat) :
    (segment a b).count (course n) = if a ≤ n ∧ n < b then 1 else 0 := by
  rw [segment, List.count_map_of_injective _ _ course_injective]
  by_cases h : a ≤ n ∧ n < b
  · rw [if_pos h]
    exact List.count_eq_one_of_mem List.nodup_range' (List.mem_range'_1.mpr (by omega))
  · rw [if_neg h]
    exact List.count_eq_zero_of_not_mem fun hm => h (by have := List.mem_range'_1.mp hm; omega)

/-! ## Marks between two sightings -/

/-- The milestone that a mark is for. -/
def Mark.milestone (m : Mark) : Milestone := (m.kind, m.index)

end Passage

/-- The mark that an event puts on record. -/
def StopEvent.mark (e : StopEvent) : Passage.Mark := ⟨e.index, e.time, e.kind⟩

namespace Passage

variable {α : Type}

/-- The stops passed on the way give both of their milestones, one stop after the other. -/
theorem milestones_passed (time : Nat → Int) (first n : Nat) :
    ((List.range' first n).flatMap fun stop =>
      [Mark.mk stop (time stop) .arrival, Mark.mk stop (time stop) .departure]).map
        Mark.milestone = segment (2 * first) (2 * (first + n)) := by
  induction n generalizing first with
  | zero => rw [Nat.add_zero, segment_self, List.range'_zero, List.flatMap_nil, List.map_nil]
  | succ n ih =>
    rw [List.range'_succ, List.flatMap_cons, List.map_append, ih (first + 1)]
    calc [Mark.mk first (time first) .arrival, Mark.mk first (time first) .departure].map
            Mark.milestone ++ segment (2 * (first + 1)) (2 * (first + 1 + n))
        = segment (2 * first) (2 * (first + 1)) ++
            segment (2 * (first + 1)) (2 * (first + 1 + n)) := by rw [segment_stop]; rfl
      _ = segment (2 * first) (2 * (first + 1 + n)) := segment_append (by omega) (by omega)
      _ = segment (2 * first) (2 * (first + (n + 1))) := by rw [Nat.add_right_comm, Nat.add_assoc]

/-- Putting marks on record loses nothing of them, as long as the trip has their stops. -/
theorem marks_records {trip : Trip α} (vehicle : VehicleId) (day offset : Int)
    {ms : List Mark} (h : ∀ m ∈ ms, m.index < trip.stopPaths.length) :
    (ms.filterMap (record? vehicle trip day offset)).map StopEvent.mark = ms := by
  induction ms with
  | nil => rfl
  | cons m ms ih =>
    have hm := h m List.mem_cons_self
    have hpath : trip.stopPath? m.index = some trip.stopPaths[m.index] :=
      List.getElem?_eq_getElem hm
    rw [List.filterMap_cons, record?, hpath, Option.map_some, List.map_cons,
      ih fun m hmem => h m (List.mem_cons_of_mem _ hmem)]
    rfl

theorem milestones_records {trip : Trip α} (vehicle : VehicleId) (day offset : Int)
    {ms : List Mark} (h : ∀ m ∈ ms, m.index < trip.stopPaths.length) :
    (ms.filterMap (record? vehicle trip day offset)).map StopEvent.milestone =
      ms.map Mark.milestone := by
  have hmilestone : StopEvent.milestone = Mark.milestone ∘ StopEvent.mark := rfl
  rw [hmilestone, ← List.map_map, marks_records vehicle day offset h]

variable [Scalar α]

theorem milestones_left (trip : Trip α) (radius : α) (before : Sighting α) :
    (left trip radius before).map Mark.milestone =
      segment (before.placement.rank trip radius) (2 * before.placement.ahead trip radius) := by
  cases h : before.placement.atStop? trip radius with
  | none =>
    rw [left, h, Placement.rank_of_between h, Placement.ahead_of_between h, segment_self]
    rfl
  | some stop =>
    rw [left, h, Placement.rank_of_atStop h, Placement.ahead_of_atStop h,
      show 2 * (stop + 1) = 2 * stop + 1 + 1 by omega, segment_succ, course_departure]
    rfl

theorem milestones_reached {trip : Trip α} {radius : α} {before now : Sighting α}
    (h : before.placement.ahead trip radius ≤ now.placement.behind trip radius) :
    (reached trip radius before now).map Mark.milestone =
      segment (2 * now.placement.behind trip radius) (now.placement.rank trip radius) := by
  cases hat : now.placement.atStop? trip radius with
  | none =>
    rw [reached, hat, Placement.rank_of_between hat, Placement.behind_of_between hat, segment_self]
    rfl
  | some stop =>
    rw [Placement.behind_of_atStop hat] at h
    rw [reached, hat, Placement.rank_of_atStop hat, Placement.behind_of_atStop hat, segment_succ,
      course_arrival]
    simp only [if_pos h]
    rfl

/-- The marks between two sightings on one trip are the milestones between their ranks. -/
theorem milestones_marks {trip : Trip α} {radius : α} {before now : Sighting α}
    (hrank : before.placement.rank trip radius ≤ now.placement.rank trip radius)
    (hnow : now.placement.index < trip.stopPaths.length) :
    (marks trip radius before now).map Mark.milestone =
      segment (before.placement.rank trip radius) (now.placement.rank trip radius) := by
  by_cases hstill : (before.placement.atStop? trip radius).isSome = true ∧
      before.placement.atStop? trip radius = now.placement.atStop? trip radius
  · -- still at the same stop: equal ranks and no marks
    have hsame : before.placement.rank trip radius = now.placement.rank trip radius := by
      obtain ⟨stop, hstop⟩ := Option.isSome_iff_exists.mp hstill.1
      rw [Placement.rank_of_atStop hstop, Placement.rank_of_atStop (hstill.2 ▸ hstop)]
    rw [hsame, segment_self, marks, if_pos (by simpa using hstill)]
    rfl
  · have hab := Placement.ahead_le_behind hrank hstill
    have hpassed : (passed trip radius before now).map Mark.milestone =
        segment (2 * before.placement.ahead trip radius)
          (2 * now.placement.behind trip radius) := by
      rw [passed, Nat.min_eq_left (Placement.behind_le_length hnow), milestones_passed,
        Nat.add_sub_cancel' hab]
    rw [marks, if_neg (by simpa using hstill), List.map_append, List.map_append,
      milestones_left, hpassed, milestones_reached hab,
      segment_append (by omega) (Placement.behind_le_rank now.placement trip radius),
      segment_append (Placement.rank_le_ahead before.placement trip radius) ?_]
    exact Nat.le_trans (by omega) (Placement.behind_le_rank now.placement trip radius)

/-! ## Events along a run of sightings -/

/-- The second of two sightings is of the same trip and day as the first, and neither its time
nor its position nor its rank is lower. -/
structure Onward (trip : Trip α) (radius : α) (before now : Sighting α) : Prop where
  trip_eq : now.placement.trip = before.placement.trip
  day_eq : now.placement.serviceDay = before.placement.serviceDay
  time_le : before.time ≤ now.time
  position_not_lt : ¬now.placement.position < before.placement.position
  rank_le : before.placement.rank trip radius ≤ now.placement.rank trip radius

theorem Onward.comparable {trip : Trip α} {radius : α} {before now : Sighting α}
    (h : Onward trip radius before now) : comparable before now = true := by
  simp [Passage.comparable, h.trip_eq, h.day_eq, h.time_le, h.position_not_lt]

/-- Marks are for stops of the trip only. -/
theorem index_lt_of_mem_marks {trip : Trip α} {radius : α} {before now : Sighting α} {m : Mark}
    (hm : m ∈ marks trip radius before now) : m.index < trip.stopPaths.length := by
  rw [marks] at hm
  split at hm
  · contradiction
  · rcases List.mem_append.mp hm with hleft | hon
    · rw [left] at hleft
      split at hleft
      · rename_i stop hstop
        obtain rfl := List.mem_singleton.mp hleft
        exact Placement.atStop?_lt hstop
      · contradiction
    · rcases List.mem_append.mp hon with hpassed | hreached
      · obtain ⟨stop, hstop, hmark⟩ := List.mem_flatMap.mp hpassed
        have hlt : stop < trip.stopPaths.length := by
          have := List.mem_range'_1.mp hstop
          omega
        rcases List.mem_pair.mp hmark with rfl | rfl
        · exact hlt
        · exact hlt
      · rw [reached] at hreached
        split at hreached
        · rename_i stop hstop
          split at hreached
          · obtain rfl := List.mem_singleton.mp hreached
            exact Placement.atStop?_lt hstop
          · contradiction
        · contradiction

/-- The events between two sightings, the second one onward, are the milestones between their
ranks. -/
theorem milestones_events {trip : Trip α} {radius : α} {before now : Sighting α}
    (h : Onward trip radius before now) (hnow : now.placement.index < trip.stopPaths.length)
    (vehicle : VehicleId) (offset : Int) :
    (events vehicle trip (some before) now radius offset).map StopEvent.milestone =
      segment (before.placement.rank trip radius) (now.placement.rank trip radius) := by
  simp only [events, h.comparable, if_true]
  rw [milestones_records vehicle _ offset fun _ hm => index_lt_of_mem_marks hm,
    milestones_marks h.rank_le hnow]

/-- The events along a run of sightings, those between each sighting and the next. -/
def eventsAlong (vehicle : VehicleId) (trip : Trip α) (radius : α) (offset : Int) :
    Sighting α → List (Sighting α) → List StopEvent
  | _, [] => []
  | before, now :: rest =>
    events vehicle trip (some before) now radius offset ++
      eventsAlong vehicle trip radius offset now rest

/-- The last sighting of a run compares with the first one as each does with the one before it,
except that the positions of the two ends are not compared by the steps in between. -/
theorem ends_of_isChain {trip : Trip α} {radius : α} {first : Sighting α}
    {rest : List (Sighting α)} (h : (first :: rest).IsChain (Onward trip radius)) :
    let last := (first :: rest).getLast (List.cons_ne_nil _ _)
    last.placement.trip = first.placement.trip ∧
      last.placement.serviceDay = first.placement.serviceDay ∧ first.time ≤ last.time ∧
      first.placement.rank trip radius ≤ last.placement.rank trip radius := by
  induction rest generalizing first with
  | nil => exact ⟨rfl, rfl, Int.le_refl _, Nat.le_refl _⟩
  | cons now rest ih =>
    obtain ⟨hnow, hrest⟩ := List.isChain_cons_cons.mp h
    obtain ⟨htrip, hday, htime, hrank⟩ := ih hrest
    exact ⟨htrip.trans hnow.trip_eq, hday.trans hnow.day_eq, Int.le_trans hnow.time_le htime,
      Nat.le_trans hnow.rank_le hrank⟩

/-- The events along a run go through the course from the rank of the first sighting to that of
the last one. -/
theorem milestones_eventsAlong {trip : Trip α} {radius : α} {first : Sighting α}
    {rest : List (Sighting α)} (h : (first :: rest).IsChain (Onward trip radius))
    (hindex : ∀ s ∈ first :: rest, s.placement.index < trip.stopPaths.length)
    (vehicle : VehicleId) (offset : Int) :
    (eventsAlong vehicle trip radius offset first rest).map StopEvent.milestone =
      segment (first.placement.rank trip radius)
        (((first :: rest).getLast (List.cons_ne_nil _ _)).placement.rank trip radius) := by
  induction rest generalizing first with
  | nil => exact (segment_self _).symm
  | cons now rest ih =>
    obtain ⟨hnow, hrest⟩ := List.isChain_cons_cons.mp h
    have htail := ih hrest fun s hs => hindex s (List.mem_cons_of_mem _ hs)
    rw [eventsAlong, List.map_append, htail,
      milestones_events hnow (hindex now (by simp)) vehicle offset]
    exact segment_append hnow.rank_le (ends_of_isChain hrest).2.2.2

/-- Along a run of sightings every milestone between the ranks of the first and the last one is
reported exactly once and in its order, and nothing else is. The sightings in between do not
matter: the events between the two ends alone are the same milestones. -/
theorem eventsAlong_course {trip : Trip α} {radius : α} {first : Sighting α}
    {rest : List (Sighting α)} (h : (first :: rest).IsChain (Onward trip radius))
    (hindex : ∀ s ∈ first :: rest, s.placement.index < trip.stopPaths.length)
    (vehicle : VehicleId) (offset : Int) :
    let last := (first :: rest).getLast (List.cons_ne_nil _ _)
    let reported := (eventsAlong vehicle trip radius offset first rest).map StopEvent.milestone
    reported = segment (first.placement.rank trip radius) (last.placement.rank trip radius) ∧
      (∀ n, reported.count (course n) =
        if first.placement.rank trip radius ≤ n ∧ n < last.placement.rank trip radius then 1
        else 0) ∧
      (¬last.placement.position < first.placement.position →
        (events vehicle trip (some first) last radius offset).map StopEvent.milestone =
          reported) := by
  intro last reported
  have hreported : reported =
      segment (first.placement.rank trip radius) (last.placement.rank trip radius) :=
    milestones_eventsAlong h hindex vehicle offset
  refine ⟨hreported, ?_, ?_⟩
  · intro n
    rw [hreported, count_segment]
  · intro hposition
    obtain ⟨htrip, hday, htime, hrank⟩ := ends_of_isChain h
    have honward : Onward trip radius first last := ⟨htrip, hday, htime, hposition, hrank⟩
    rw [hreported]
    exact milestones_events honward (hindex last (List.getLast_mem _)) vehicle offset

/-- A trip with three stops, half a kilometre apart. -/
def threeStops : Trip Rat where
  id := "line"
  route := "1"
  direction := none
  block := "block"
  service := "weekdays"
  frequencyBased := false
  start := 0
  stopPaths := ["harbour", "market", "station"].map fun stop => ⟨stop, 60000, 0, 0, false, none⟩

/-- A sighting on that trip. -/
def sighted (index : Nat) (along : Rat) (time : Int) : Sighting Rat :=
  ⟨⟨"line", "block", 0, index, along, 500⟩, time⟩

/-- From the first stop over a point between stops to the last stop, the stop in the middle being
passed without a report. -/
theorem eventsAlong_threeStops :
    let run := [sighted 1 250 60000, sighted 2 490 120000]
    (sighted 0 490 0 :: run).IsChain (Onward threeStops 25) ∧
      (∀ s ∈ sighted 0 490 0 :: run, s.placement.index < threeStops.stopPaths.length) ∧
      (eventsAlong "bus" threeStops 25 0 (sighted 0 490 0) run).map StopEvent.milestone =
        [(.departure, 0), (.arrival, 1), (.departure, 1), (.arrival, 2)] := by
  intro run
  have hchain : (sighted 0 490 0 :: run).IsChain (Onward threeStops 25) := by
    refine List.isChain_cons_cons.mpr ⟨?_, List.isChain_cons_cons.mpr ⟨?_, List.IsChain.singleton _⟩⟩
    · exact ⟨rfl, rfl, by decide, by decide +kernel, by decide +kernel⟩
    · exact ⟨rfl, rfl, by decide, by decide +kernel, by decide +kernel⟩
  have hindex : ∀ s ∈ sighted 0 490 0 :: run, s.placement.index < threeStops.stopPaths.length := by
    decide
  refine ⟨hchain, hindex, ?_⟩
  rw [(eventsAlong_course hchain hindex "bus" 0).1]
  decide +kernel

end Passage

end NextStop
