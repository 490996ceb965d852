import NextStop.Proofs.Engine.Sightings
import NextStop.Proofs.Passage.Timing

/-!
# Arrivals and departures in the order of time

What is told of two sightings of a vehicle lies between their times. So as long as the sightings of
a vehicle come in the order of time, its arrivals and departures go on record in that order too,
whichever trips it is placed on and whatever else is called: `Engine.performAll_inTime`.
-/

namespace NextStop

/-- Events in the order of time, none of them before all of the sightings. -/
structure Chronicles (sightings : List (Sighting Rat)) (events : List StopEvent) : Prop where
  ordered : events.Pairwise fun d e => d.time ≤ e.time
  not_before : ∀ first, (∀ s ∈ sightings, first ≤ s.time) → ∀ e ∈ events, first ≤ e.time

namespace Chronicles

variable {sightings : List (Sighting Rat)} {events : List StopEvent}

theorem nil (sightings : List (Sighting Rat)) : Chronicles sightings [] where
  ordered := .nil
  not_before := by simp

/-- Events are none the earlier for further sightings. -/
theorem mono {more : List (Sighting Rat)} (h : Chronicles sightings events)
    (hmore : sightings ⊆ more) : Chronicles more events where
  ordered := h.ordered
  not_before first hfirst := h.not_before first fun s hs => hfirst s (hmore hs)

/-- What is told of the next sighting comes before what is told from then on. -/
theorem shown_append {before : Option (Sighting Rat)} {s : Sighting Rat}
    (h : Chronicles (s :: sightings) events)
    (hordered : (before.toList ++ s :: sightings).Pairwise fun a b => a.time ≤ b.time)
    (id : VehicleId) (t : Trip Rat) (radius : Rat) (offset : Int) :
    Chronicles (before.toList ++ s :: sightings)
      (Passage.shown id t radius offset before s ++ events) := by
  have hnext := (List.pairwise_append.mp hordered).2.1
  have hlater : ∀ e ∈ events, s.time ≤ e.time := by
    refine h.not_before s.time fun a ha => ?_
    rcases List.mem_cons.mp ha with rfl | ha
    · exact Int.le_refl _
    · exact List.rel_of_pairwise_cons hnext ha
  cases before with
  | none =>
    rw [Passage.shown_none]
    exact h
  | some b =>
    obtain ⟨hshown, hbounds⟩ := Passage.inTime_shown id t radius offset b s
    rw [List.pairwise_map] at hshown
    have hbetween : ∀ e ∈ Passage.shown id t radius offset (some b) s,
        b.time ≤ e.time ∧ e.time ≤ s.time := fun e he => hbounds _ (List.mem_map_of_mem he)
    constructor
    · refine List.pairwise_append.mpr ⟨hshown, h.ordered, fun d hd e he => ?_⟩
      exact (hbetween d hd).2.trans (hlater e he)
    · intro first hfirst e he
      rcases List.mem_append.mp he with he | he
      · exact (hfirst b (by simp)).trans (hbetween e he).1
      · exact (hfirst s (by simp)).trans (hlater e he)

end Chronicles

namespace Engine

/-- What one call tells of a vehicle comes before what the calls after it tell. -/
theorem sighted_chronicles {e : Engine Rat} (hfiled : e.Filed) (id : VehicleId)
    (call : Int × Call Rat) {later : List (Sighting Rat)}
    (hordered : ((e.vehicle id).sighting?.toList ++
      ((call.2.sighting? id).toList ++ later)).Pairwise fun s t => s.time ≤ t.time) :
    let after := ((e.perform call).vehicle id).sighting?.toList ++ later
    (after.Pairwise fun s t => s.time ≤ t.time) ∧
      ∀ events, Chronicles after events →
        Chronicles ((e.vehicle id).sighting?.toList ++ ((call.2.sighting? id).toList ++ later))
          ((e.emitted call).filter (·.vehicle == id) ++ events) := by
  -- where nothing is told, only sightings may have been forgotten
  have hnothing : ∀ {after : List (Sighting Rat)}, (e.emitted call).filter (·.vehicle == id) = [] →
      after.Sublist ((e.vehicle id).sighting?.toList ++ ((call.2.sighting? id).toList ++ later)) →
      (after.Pairwise fun s t => s.time ≤ t.time) ∧
        ∀ events, Chronicles after events →
          Chronicles ((e.vehicle id).sighting?.toList ++ ((call.2.sighting? id).toList ++ later))
            ((e.emitted call).filter (·.vehicle == id) ++ events) := by
    intro after htold hsub
    refine ⟨hordered.sublist hsub, fun events h => ?_⟩
    rw [htold]
    exact h.mono hsub.subset
  rcases sighted_cases hfiled id call with
    ⟨-, htold, hsame | ⟨-, hnone⟩⟩ | ⟨s, -, -, htold, hsame⟩ | ⟨s, t, hsome, -, htold, hafter⟩
  · apply hnothing htold
    rw [hsame]
    exact List.append_sublist_append_left _ |>.mpr (List.sublist_append_right _ _)
  · apply hnothing htold
    rw [hnone]
    exact (List.sublist_append_right _ _).trans (List.sublist_append_right _ _)
  · apply hnothing htold
    rw [hsame]
    exact List.append_sublist_append_left _ |>.mpr (List.sublist_append_right _ _)
  · rw [hsome] at hordered ⊢
    rw [hafter, htold]
    exact ⟨(List.pairwise_append.mp hordered).2.1, fun events h => h.shown_append hordered id t _ _⟩

/-- What goes on record of a vehicle in a run of calls is in the order of time, if its sightings
are, from the one before the run on. -/
theorem performAll_chronicles {e : Engine Rat} (hfiled : e.Filed) {id : VehicleId}
    {calls : List (Int × Call Rat)}
    (hordered : ((e.vehicle id).sighting?.toList ++ sightings id calls).Pairwise
      fun s t => s.time ≤ t.time) :
    ∃ records, (e.performAll calls).journal = e.journal.appendAll records ∧
      Chronicles ((e.vehicle id).sighting?.toList ++ sightings id calls)
        ((records.filterMap Record.stopEvent?).filter (·.vehicle == id)) := by
  induction calls generalizing e with
  | nil => exact ⟨[], rfl, .nil _⟩
  | cons call rest ih =>
    rw [sightings_cons] at hordered ⊢
    obtain ⟨hafter, htold⟩ := sighted_chronicles hfiled id call hordered
    obtain ⟨records, hjournal, hemitted⟩ := e.perform_journal call
    obtain ⟨later, hrest, hlater⟩ := ih (hfiled.performAll [call]) hafter
    refine ⟨records ++ later, ?_, ?_⟩
    · rw [Journal.appendAll_append, ← hjournal]
      exact hrest
    · rw [List.filterMap_append, List.filter_append, hemitted]
      exact htold _ hlater

/-- In exact arithmetic, whatever two sightings are compared, what is told of them lies between their
times and in their order, and a stop that was passed between them has one time for its arrival and
its departure. Hence in a run of calls that sights a vehicle in the order of time, from where it was
before on, its arrivals and departures go on record in the order of time. -/
theorem performAll_inTime :
    (∀ (id : VehicleId) (trip : Trip Rat) (before now : Sighting Rat) (radius : Rat) (offset : Int),
      let told := Passage.events id trip (some before) now radius offset
      Passage.InTime before.time now.time (told.map StopEvent.time) ∧
        ∀ stop, before.placement.ahead trip radius ≤ stop →
          stop < now.placement.behind trip radius → stop < trip.stopPaths.length →
          Passage.comparable before now = true →
            ∃ time, (told.filter (·.index == stop)).map StopEvent.mark =
              [⟨stop, time, .arrival⟩, ⟨stop, time, .departure⟩]) ∧
    ∀ (settings : Settings Rat) (timetable : Timetable Rat) (journal : Journal Rat)
      (earlier calls : List (Int × Call Rat)) (id : VehicleId),
      let e := (start settings timetable journal).performAll earlier
      (((e.vehicle id).sighting?.toList ++ sightings id calls).Pairwise
        fun s t => s.time ≤ t.time) →
      ∃ records, (e.performAll calls).journal = e.journal.appendAll records ∧
        ((records.filterMap Record.stopEvent?).filter (·.vehicle == id)).Pairwise
          fun d e => d.time ≤ e.time := by
  constructor
  · intro id trip before now radius offset told
    refine ⟨Passage.inTime_events id trip radius offset before now, ?_⟩
    intro stop hahead hbehind hstop hcomparable
    exact ⟨_, Passage.events_of_passed id trip radius offset hcomparable hahead hbehind hstop⟩
  · intro settings timetable journal earlier calls id e hordered
    have hfiled : e.Filed := (Filed.start settings timetable journal).performAll earlier
    obtain ⟨records, hjournal, hchronicles⟩ := performAll_chronicles hfiled hordered
    exact ⟨records, hjournal, hchronicles.ordered⟩

/-- A bus passes the stop in the middle without a report from there, is taken off its assignment,
sets out on the same trip again and reaches its end. Both times the stop in the middle has one time
for its arrival and departure, and all times are in order. -/
theorem performAll_inTime_bus :
    let calls := busReports [(1, 250, 500, 60000), (2, 300, 500, 120000)] ++
      [(125000, .sweep), (130000, .unassign "bus")] ++
      busReports [(1, 250, 500, 150000), (2, 490, 500, 200000)]
    let e := lineEngine.performAll (busReports [(0, 490, 500, 0)])
    let before := Passage.sighted 1 250 60000
    let now := Passage.sighted 2 300 120000
    let told := Passage.events "bus" Passage.threeStops (some before) now 25 0
    Passage.InTime 60000 120000 (told.map StopEvent.time) ∧
      (∃ time, (told.filter (·.index == 1)).map StopEvent.mark =
        [⟨1, time, .arrival⟩, ⟨1, time, .departure⟩]) ∧
      (∃ records, (e.performAll calls).journal = e.journal.appendAll records ∧
        ((records.filterMap Record.stopEvent?).filter (·.vehicle == "bus")).Pairwise
          fun d e => d.time ≤ e.time) ∧
      ((e.performAll calls).journal.records.filterMap Record.stopEvent?).map StopEvent.mark =
        [⟨0, 0, .departure⟩, ⟨1, 87273, .arrival⟩, ⟨1, 87273, .departure⟩, ⟨1, 166892, .arrival⟩,
          ⟨1, 166892, .departure⟩, ⟨2, 200000, .arrival⟩] := by
  intro calls e before now told
  obtain ⟨hstep, hrun⟩ := performAll_inTime
  obtain ⟨htimes, hpassed⟩ := hstep "bus" Passage.threeStops before now 25 0
  have hmiddle := hpassed 1 (by decide +kernel) (by decide +kernel) (by decide) (by decide +kernel)
  have hordered : ((e.vehicle "bus").sighting?.toList ++ sightings "bus" calls).Pairwise
      fun s t => s.time ≤ t.time := by
    decide +kernel
  refine ⟨htimes, hmiddle, ?_, by decide +kernel⟩
  exact hrun { Settings.standard with stopEventsOnly := true } (.ofTrips [Passage.threeStops])
    (.kept #[]) (busReports [(0, 490, 500, 0)]) calls "bus" hordered

end Engine

end NextStop
