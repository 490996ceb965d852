import Mathlib.Data.List.Chain
import NextStop.Proofs.Passage.Course

/-!
# Arrivals and departures take turns

A vehicle that moves on arrives at a stop and departs from it in turns. Sightings may also go
back, in time or in position, and nothing is told of such a step although the next one starts from
where it led. So a step may take the vehicle to a stop or away from it untold: it strays,
`Passage.Strays`. Where no step strays at a stop, what is told of the stop follows the vehicle
being there or not, and so arrivals and departures alternate, `Passage.alternates_told`; it does
not matter how the vehicle jumps about in between.
-/

namespace NextStop

/-- Between two arrivals at a stop there is a departure from it, and between two departures an
arrival. -/
def Alternates (stop : Nat) (events : List StopEvent) : Prop :=
  ∀ (pre mid post : List StopEvent) (a b : StopEvent),
    events.filter (·.index == stop) = pre ++ a :: (mid ++ b :: post) → a.kind = b.kind →
      ∃ c ∈ mid, c.kind ≠ a.kind

/-- It is enough to look at neighbours. -/
theorem alternates_iff {stop : Nat} {events : List StopEvent} :
    Alternates stop events ↔
      ((events.filter (·.index == stop)).map StopEvent.kind).IsChain (· ≠ ·) := by
  rw [List.isChain_map, List.isChain_iff_forall_rel_of_append_cons_cons]
  constructor
  · intro h a b pre post hsplit hkind
    obtain ⟨c, hc, -⟩ := h pre [] post a b hsplit hkind
    contradiction
  · intro h pre mid post a b hsplit hkind
    cases mid with
    | nil => exact absurd hkind (h hsplit)
    | cons c mid => exact ⟨c, List.mem_cons_self, (h hsplit).symm⟩

instance (stop : Nat) (events : List StopEvent) : Decidable (Alternates stop events) :=
  decidable_of_iff _ alternates_iff.symm

namespace Passage

/-! ## Turns -/

/-- What happens at a stop in turns, with whether the vehicle is there before and after. -/
inductive Turns : Bool → List StopEventKind → Bool → Prop
  | rest (present : Bool) : Turns present [] present
  | arrive {kinds : List StopEventKind} {later : Bool} (h : Turns true kinds later) :
      Turns false (.arrival :: kinds) later
  | depart {kinds : List StopEventKind} {later : Bool} (h : Turns false kinds later) :
      Turns true (.departure :: kinds) later

theorem Turns.append {before now later : Bool} {kinds kinds' : List StopEventKind}
    (h : Turns before kinds now) (h' : Turns now kinds' later) :
    Turns before (kinds ++ kinds') later := by
  induction h with
  | rest present => exact h'
  | arrive _ ih => exact .arrive (ih h')
  | depart _ ih => exact .depart (ih h')

theorem Turns.isChain {before now : Bool} {kinds : List StopEventKind}
    (h : Turns before kinds now) : kinds.IsChain (· ≠ ·) := by
  induction h with
  | rest present => exact .nil
  | arrive h ih =>
    cases h with
    | rest => exact .singleton _
    | depart h => exact List.isChain_cons_cons.mpr ⟨by decide, ih⟩
  | depart h ih =>
    cases h with
    | rest => exact .singleton _
    | arrive h => exact List.isChain_cons_cons.mpr ⟨by decide, ih⟩

/-- What happens at one stop among some milestones. -/
def turnsAt (stop : Nat) (milestones : List Milestone) : List StopEventKind :=
  (milestones.filter (·.2 == stop)).map Prod.fst

theorem turnsAt_append (stop : Nat) (xs ys : List Milestone) :
    turnsAt stop (xs ++ ys) = turnsAt stop xs ++ turnsAt stop ys := by
  rw [turnsAt, List.filter_append, List.map_append]
  rfl

theorem turnsAt_events (stop : Nat) (events : List StopEvent) :
    turnsAt stop (events.map StopEvent.milestone) =
      (events.filter (·.index == stop)).map StopEvent.kind := by
  rw [turnsAt, List.filter_map, List.map_map]
  rfl

variable {α : Type}

theorem turnsAt_marks (stop : Nat) (marks : List Mark) :
    turnsAt stop (marks.map Mark.milestone) = (marks.filter (·.index == stop)).map Mark.kind := by
  rw [turnsAt, List.filter_map, List.map_map]
  rfl

/-- Of the stops passed on the way one is the stop in question, or none. -/
theorem filter_passing (stop : Nat) (time : Nat → Int) (first n : Nat) :
    ((List.range' first n).flatMap fun k =>
      [Mark.mk k (time k) .arrival, Mark.mk k (time k) .departure]).filter (·.index == stop) =
        if first ≤ stop ∧ stop < first + n then
          [⟨stop, time stop, .arrival⟩, ⟨stop, time stop, .departure⟩]
        else [] := by
  induction n generalizing first with
  | zero => rw [if_neg (by omega)]; rfl
  | succ n ih =>
    rw [List.range'_succ, List.flatMap_cons, List.filter_append, ih]
    by_cases h : first = stop
    · subst h
      rw [if_neg (by omega), if_pos (by omega)]
      simp
    · by_cases hpassed : first + 1 ≤ stop ∧ stop < first + 1 + n
      · rw [if_pos hpassed, if_pos (by omega)]
        simp [h]
      · rw [if_neg hpassed, if_neg (by omega)]
        simp [h]

/-! ## One step -/

variable [Scalar α]

/-- Whether a vehicle is at a stop. -/
def isAt (trip : Trip α) (radius : α) (stop : Nat) (s : Sighting α) : Bool :=
  s.placement.atStop? trip radius == some stop

theorem isAt_iff {trip : Trip α} {radius : α} {stop : Nat} {s : Sighting α} :
    isAt trip radius stop s = true ↔ s.placement.atStop? trip radius = some stop := by
  simp [isAt]

theorem turnsAt_left (trip : Trip α) (radius : α) (stop : Nat) (before : Sighting α) :
    turnsAt stop ((left trip radius before).map Mark.milestone) =
      if isAt trip radius stop before then [.departure] else [] := by
  rw [left, isAt]
  cases before.placement.atStop? trip radius with
  | none => rfl
  | some k =>
    by_cases h : k = stop
    · simp [turnsAt, Mark.milestone, h]
    · simp [turnsAt, Mark.milestone, h]

theorem turnsAt_reached (trip : Trip α) (radius : α) (stop : Nat) (before now : Sighting α) :
    turnsAt stop ((reached trip radius before now).map Mark.milestone) =
      if isAt trip radius stop now = true ∧ before.placement.ahead trip radius ≤ stop then
        [.arrival]
      else [] := by
  rw [reached, isAt]
  cases now.placement.atStop? trip radius with
  | none => simp [turnsAt]
  | some k =>
    dsimp only
    by_cases h : k = stop
    · subst h
      by_cases hahead : before.placement.ahead trip radius ≤ k
      · simp [turnsAt, Mark.milestone, hahead]
      · simp [turnsAt, hahead]
    · by_cases hahead : before.placement.ahead trip radius ≤ k
      · simp [turnsAt, Mark.milestone, h, hahead]
      · simp [turnsAt, h, hahead]

theorem turnsAt_passed (trip : Trip α) (radius : α) (stop : Nat) (before now : Sighting α) :
    turnsAt stop ((passed trip radius before now).map Mark.milestone) =
      if before.placement.ahead trip radius ≤ stop ∧
          stop < min (now.placement.behind trip radius) trip.stopPaths.length then
        [.arrival, .departure]
      else [] := by
  rw [passed, turnsAt_marks, filter_passing]
  by_cases h : before.placement.ahead trip radius ≤ stop ∧
      stop < min (now.placement.behind trip radius) trip.stopPaths.length
  · rw [if_pos h, if_pos (by omega)]
    rfl
  · rw [if_neg h, if_neg (by omega)]
    rfl

/-- The marks between two sightings follow whether the vehicle is at the stop, unless it comes to
the stop from beyond. -/
theorem turns_marks {trip : Trip α} {radius : α} {stop : Nat} {before now : Sighting α}
    (h : isAt trip radius stop before = false → isAt trip radius stop now = true →
      before.placement.ahead trip radius ≤ stop) :
    Turns (isAt trip radius stop before)
      (turnsAt stop ((marks trip radius before now).map Mark.milestone))
      (isAt trip radius stop now) := by
  by_cases hstill : (before.placement.atStop? trip radius).isSome = true ∧
      before.placement.atStop? trip radius = now.placement.atStop? trip radius
  · have hsame : isAt trip radius stop before = isAt trip radius stop now := by
      rw [isAt, isAt, hstill.2]
    rw [marks, if_pos (by simpa using hstill), hsame]
    exact .rest _
  · rw [marks, if_neg (by simpa using hstill), List.map_append, List.map_append, turnsAt_append,
      turnsAt_append, turnsAt_left, turnsAt_reached, turnsAt_passed]
    cases hbefore : isAt trip radius stop before with
    | true =>
      have hat := isAt_iff.mp hbefore
      have hnow : isAt trip radius stop now = false := by
        rw [Bool.eq_false_iff]
        exact fun hnow => hstill ⟨by rw [hat]; rfl, hat.trans (isAt_iff.mp hnow).symm⟩
      have hahead : ¬before.placement.ahead trip radius ≤ stop := by
        rw [Placement.ahead_of_atStop hat]
        omega
      rw [hnow, if_pos rfl, if_neg (hahead ·.1), if_neg (hahead ·.2)]
      exact .depart (.rest false)
    | false =>
      rw [if_neg Bool.false_ne_true]
      cases hnow : isAt trip radius stop now with
      | true =>
        have hbehind : ¬stop < min (now.placement.behind trip radius) trip.stopPaths.length := by
          rw [Placement.behind_of_atStop (isAt_iff.mp hnow)]
          omega
        rw [if_neg (hbehind ·.2), if_pos ⟨rfl, h hbefore hnow⟩]
        exact .arrive (.rest true)
      | false =>
        have hreached : ¬(false = true ∧ before.placement.ahead trip radius ≤ stop) :=
          fun h => Bool.false_ne_true h.1
        rw [if_neg hreached]
        split
        · exact .arrive (.depart (.rest false))
        · exact .rest false

/-- A step takes a vehicle to a stop or away from it in a way that nothing is told of: the stop
path is not one of the trip, the two sightings cannot be compared, or the vehicle comes to the
stop from beyond. -/
def Strays (trip : Trip α) (radius : α) (stop : Nat) (before now : Sighting α) : Prop :=
  isAt trip radius stop before ≠ isAt trip radius stop now ∧
    (trip.stopPath? now.placement.index = none ∨ comparable before now = false ∨
      isAt trip radius stop now = true ∧ stop < before.placement.ahead trip radius)

instance (trip : Trip α) (radius : α) (stop : Nat) (before now : Sighting α) :
    Decidable (Strays trip radius stop before now) :=
  inferInstanceAs (Decidable (_ ∧ _))

/-- What is told of a step: nothing if the stop path is not one of the trip. -/
def shown (vehicle : VehicleId) (trip : Trip α) (radius : α) (offset : Int)
    (before : Option (Sighting α)) (now : Sighting α) : List StopEvent :=
  if trip.stopPath? now.placement.index = none then []
  else events vehicle trip before now radius offset

/-- Nothing is told of the first sighting. -/
theorem shown_none (vehicle : VehicleId) (trip : Trip α) (radius : α) (offset : Int)
    (now : Sighting α) : shown vehicle trip radius offset none now = [] := by
  rw [shown, events, ite_self]

theorem vehicle_of_mem_shown {vehicle : VehicleId} {trip : Trip α} {radius : α} {offset : Int}
    {before : Option (Sighting α)} {now : Sighting α} {ev : StopEvent}
    (h : ev ∈ shown vehicle trip radius offset before now) : ev.vehicle = vehicle := by
  rw [shown] at h
  split at h
  · contradiction
  · cases before with
    | none => exact absurd h List.not_mem_nil
    | some s =>
      rw [events] at h
      split at h
      · obtain ⟨mark, -, hrecord⟩ := List.mem_filterMap.mp h
        obtain ⟨path, -, rfl⟩ := Option.map_eq_some_iff.mp hrecord
        rfl
      · contradiction

/-- What is told of a step that does not stray follows whether the vehicle is at the stop. -/
theorem turns_shown {trip : Trip α} {radius : α} {stop : Nat} {before now : Sighting α}
    (h : ¬Strays trip radius stop before now) (vehicle : VehicleId) (offset : Int) :
    Turns (isAt trip radius stop before)
      (turnsAt stop
        ((shown vehicle trip radius offset (some before) now).map StopEvent.milestone))
      (isAt trip radius stop now) := by
  -- where nothing is told, the vehicle is at the stop before and after, or neither time
  have huntold : trip.stopPath? now.placement.index = none ∨ comparable before now = false →
      Turns (isAt trip radius stop before) [] (isAt trip radius stop now) := by
    intro huntold
    have hsame : isAt trip radius stop before = isAt trip radius stop now := by
      by_contra hne
      exact h ⟨hne, huntold.imp id .inl⟩
    rw [hsame]
    exact .rest _
  rw [shown]
  split
  · rename_i hout
    exact huntold (.inl hout)
  · rw [events]
    split
    · rw [milestones_records vehicle _ offset fun _ hm => index_lt_of_mem_marks hm]
      apply turns_marks
      intro hbefore hnow
      by_contra hbeyond
      exact h ⟨by rw [hbefore, hnow]; decide, .inr (.inr ⟨hnow, by omega⟩)⟩
    · rename_i hcomparable
      exact huntold (.inr (by simpa using hcomparable))

/-! ## Runs of sightings -/

/-- What is told along a run of sightings, in any order of times and positions. -/
def told (vehicle : VehicleId) (trip : Trip α) (radius : α) (offset : Int) :
    Option (Sighting α) → List (Sighting α) → List StopEvent
  | _, [] => []
  | before, now :: rest =>
    shown vehicle trip radius offset before now ++
      told vehicle trip radius offset (some now) rest

theorem told_toList_append (vehicle : VehicleId) (trip : Trip α) (radius : α) (offset : Int)
    (before now : Option (Sighting α)) (rest : List (Sighting α)) :
    told vehicle trip radius offset before (now.toList ++ rest) =
      told vehicle trip radius offset before now.toList ++
        told vehicle trip radius offset (now.or before) rest := by
  cases now with
  | none => rfl
  | some s =>
    rw [Option.toList_some, List.singleton_append, told, told, told, List.append_nil]
    rfl

theorem turns_told {trip : Trip α} {radius : α} {stop : Nat} {first : Sighting α}
    {rest : List (Sighting α)}
    (h : (first :: rest).IsChain fun before now => ¬Strays trip radius stop before now)
    (vehicle : VehicleId) (offset : Int) :
    ∃ later, Turns (isAt trip radius stop first)
      (turnsAt stop
        ((told vehicle trip radius offset (some first) rest).map StopEvent.milestone)) later := by
  induction rest generalizing first with
  | nil => exact ⟨_, .rest _⟩
  | cons now rest ih =>
    obtain ⟨hstep, hrest⟩ := List.isChain_cons_cons.mp h
    obtain ⟨later, hlater⟩ := ih hrest
    refine ⟨later, ?_⟩
    rw [told, List.map_append, turnsAt_append]
    exact (turns_shown hstep vehicle offset).append hlater

/-- Along a run of sightings that does not stray at a stop, arrivals at the stop and departures
from it alternate. -/
theorem alternates_told {trip : Trip α} {radius : α} {stop : Nat} {before : Option (Sighting α)}
    {sightings : List (Sighting α)}
    (h : (before.toList ++ sightings).IsChain fun before now => ¬Strays trip radius stop before now)
    (vehicle : VehicleId) (offset : Int) :
    Alternates stop (told vehicle trip radius offset before sightings) := by
  have hsome : ∀ {first : Sighting α} {rest : List (Sighting α)},
      (first :: rest).IsChain (fun before now => ¬Strays trip radius stop before now) →
        Alternates stop (told vehicle trip radius offset (some first) rest) := by
    intro first rest h
    obtain ⟨later, hturns⟩ := turns_told h vehicle offset
    rw [turnsAt_events] at hturns
    exact alternates_iff.mpr hturns.isChain
  cases before with
  | some first => exact hsome h
  | none =>
    cases sightings with
    | nil => exact alternates_iff.mpr .nil
    | cons first rest =>
      rw [told, shown_none, List.nil_append]
      exact hsome h

end Passage

end NextStop
