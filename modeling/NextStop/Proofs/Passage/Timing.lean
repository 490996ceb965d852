import NextStop.Proofs.Passage.Alternation
import NextStop.Proofs.Scalar

/-!
# The times of arrivals and departures

In exact arithmetic, the time at which a vehicle was at a stop between two sightings lies between
their times and does not decrease from one stop to the next, wherever the two sightings are. So
what is told of two sightings is in the order of time, from the time of the first to that of the
second, `Passage.inTime_events`. A stop that was passed has a single time for its arrival and its
departure, `Passage.events_of_passed`.
-/

namespace NextStop

namespace Passage

/-! ## Times in order -/

/-- Times in order that lie between two bounds. -/
structure InTime (first last : Int) (times : List Int) : Prop where
  ordered : times.Pairwise (· ≤ ·)
  bounds : ∀ t ∈ times, first ≤ t ∧ t ≤ last

theorem inTime_nil (first last : Int) : InTime first last [] where
  ordered := .nil
  bounds := by simp

theorem inTime_singleton {first t last : Int} (hfirst : first ≤ t) (hlast : t ≤ last) :
    InTime first last [t] where
  ordered := List.pairwise_singleton _ t
  bounds := by simp [hfirst, hlast]

theorem InTime.append {first middle last : Int} {ts us : List Int} (h : InTime first middle ts)
    (h' : InTime middle last us) (hmiddle : first ≤ middle ∧ middle ≤ last) :
    InTime first last (ts ++ us) where
  ordered := by
    refine List.pairwise_append.mpr ⟨h.ordered, h'.ordered, fun t ht u hu => ?_⟩
    exact (h.bounds t ht).2.trans (h'.bounds u hu).1
  bounds t ht := by
    rcases List.mem_append.mp ht with ht | ht
    · exact ⟨(h.bounds t ht).1, (h.bounds t ht).2.trans hmiddle.2⟩
    · exact ⟨hmiddle.1.trans (h'.bounds t ht).1, (h'.bounds t ht).2⟩

/-! ## The time at a stop -/

/-- The share of the way between two sightings that lies before a stop. -/
def share (before now : Sighting Rat) (stop : Nat) : Rat :=
  let start := before.placement.position
  Scalar.clamp 0 1 ((Scalar.ofNat stop - start) / (now.placement.position - start))

theorem share_nonneg (before now : Sighting Rat) (stop : Nat) : 0 ≤ share before now stop :=
  Scalar.clamp_nonneg _

theorem share_le_one (before now : Sighting Rat) (stop : Nat) : share before now stop ≤ 1 :=
  Scalar.clamp_le_one _

section TimeAt

variable {before now : Sighting Rat}

theorem timeAt_of_le {stop : Nat}
    (h : now.placement.position - before.placement.position ≤ Scalar.epsilon) :
    timeAt before now stop = now.time := if_pos h

theorem timeAt_of_lt {stop : Nat}
    (h : Scalar.epsilon < now.placement.position - before.placement.position) :
    timeAt before now stop = before.time +
      Scalar.round (((now.time - before.time : Int) : Rat) * share before now stop) :=
  if_neg (not_le.mpr h)

theorem share_mono (h : Scalar.epsilon < now.placement.position - before.placement.position)
    {stop next : Nat} (hstop : stop ≤ next) : share before now stop ≤ share before now next := by
  have hepsilon : (0 : Rat) < Scalar.epsilon := by decide +kernel
  have hcount : (Scalar.ofNat stop : Rat) ≤ Scalar.ofNat next :=
    Int.cast_le.mpr (Int.ofNat_le.mpr hstop)
  apply Scalar.clamp_mono
  apply div_le_div_of_nonneg_right _ (hepsilon.trans h).le
  exact sub_le_sub_right hcount _

theorem timeAt_mem (h : before.time ≤ now.time) (stop : Nat) :
    before.time ≤ timeAt before now stop ∧ timeAt before now stop ≤ now.time := by
  rcases le_or_gt (now.placement.position - before.placement.position) Scalar.epsilon with
    hway | hway
  · rw [timeAt_of_le hway]
    exact ⟨h, Int.le_refl _⟩
  · have hspan : (0 : Rat) ≤ ((now.time - before.time : Int) : Rat) :=
      Int.cast_nonneg (Int.sub_nonneg.mpr h)
    have hlow := Scalar.round_nonneg (mul_nonneg hspan (share_nonneg before now stop))
    have hhigh :=
      Scalar.round_mono (mul_le_of_le_one_right hspan (share_le_one before now stop))
    rw [Scalar.round_intCast] at hhigh
    rw [timeAt_of_lt hway]
    exact ⟨Int.le_add_of_nonneg_right hlow, by linarith⟩

/-- The further along a stop is, the later the vehicle was there. -/
theorem timeAt_mono (h : before.time ≤ now.time) {stop next : Nat} (hstop : stop ≤ next) :
    timeAt before now stop ≤ timeAt before now next := by
  rcases le_or_gt (now.placement.position - before.placement.position) Scalar.epsilon with
    hway | hway
  · rw [timeAt_of_le hway, timeAt_of_le hway]
  · have hspan : (0 : Rat) ≤ ((now.time - before.time : Int) : Rat) :=
      Int.cast_nonneg (Int.sub_nonneg.mpr h)
    rw [timeAt_of_lt hway, timeAt_of_lt hway]
    apply Int.add_le_add_left
    apply Scalar.round_mono
    exact mul_le_mul_of_nonneg_left (share_mono hway hstop) hspan

end TimeAt

/-! ## What is told of two sightings -/

section Told

variable {before now : Sighting Rat} (trip : Trip Rat) (radius : Rat)

theorem inTime_left (before : Sighting Rat) :
    InTime before.time before.time ((left trip radius before).map Mark.time) := by
  unfold left
  split
  · exact inTime_singleton (Int.le_refl _) (Int.le_refl _)
  · exact inTime_nil _ _

/-- Passed stops lie before the one that the vehicle is heading for or at now. -/
theorem inTime_passed (h : before.time ≤ now.time) :
    InTime before.time (timeAt before now (now.placement.behind trip radius))
      ((passed trip radius before now).map Mark.time) where
  ordered := by
    unfold passed
    rw [List.map_flatMap, List.pairwise_flatMap]
    refine ⟨by simp, (List.pairwise_lt_range' 1).imp ?_⟩
    intro stop next hlt
    simpa using timeAt_mono h hlt.le
  bounds t ht := by
    obtain ⟨mark, hmark, rfl⟩ := List.mem_map.mp ht
    obtain ⟨stop, hstop, hmark⟩ := List.mem_flatMap.mp hmark
    have hbehind : stop ≤ now.placement.behind trip radius := by
      have := List.mem_range'_1.mp hstop
      omega
    have htime : mark.time = timeAt before now stop := by
      rcases List.mem_pair.mp hmark with rfl | rfl <;> rfl
    rw [htime]
    exact ⟨(timeAt_mem h stop).1, timeAt_mono h hbehind⟩

theorem inTime_reached (h : before.time ≤ now.time) :
    InTime (timeAt before now (now.placement.behind trip radius)) now.time
      ((reached trip radius before now).map Mark.time) := by
  unfold reached
  split
  · rename_i stop hat
    rw [Placement.behind_of_atStop hat]
    split
    · exact inTime_singleton (Int.le_refl _) (timeAt_mem h stop).2
    · exact inTime_nil _ _
  · exact inTime_nil _ _

theorem inTime_marks (h : before.time ≤ now.time) :
    InTime before.time now.time ((marks trip radius before now).map Mark.time) := by
  unfold marks
  dsimp only
  split
  · exact inTime_nil _ _
  · have hbehind := timeAt_mem h (now.placement.behind trip radius)
    rw [List.map_append, List.map_append]
    refine (inTime_left trip radius before).append ?_ ⟨Int.le_refl _, h⟩
    exact (inTime_passed trip radius h).append (inTime_reached trip radius h) hbehind

/-- A stop that is ahead was not left. -/
theorem filter_left {stop : Nat} (h : before.placement.ahead trip radius ≤ stop) :
    (left trip radius before).filter (·.index == stop) = [] := by
  unfold left
  split
  · rename_i other hat
    rw [Placement.ahead_of_atStop hat] at h
    have hne : other ≠ stop := by omega
    simp [hne]
  · rfl

/-- A stop that is behind was not only reached. -/
theorem filter_reached {stop : Nat} (h : stop < now.placement.behind trip radius) :
    (reached trip radius before now).filter (·.index == stop) = [] := by
  unfold reached
  split
  · rename_i other hat
    rw [Placement.behind_of_atStop hat] at h
    have hne : other ≠ stop := by omega
    split
    · simp [hne]
    · rfl
  · rfl

/-- What is told of a stop that was passed is that the vehicle arrived and departed at one time. -/
theorem marks_of_passed {stop : Nat} (hahead : before.placement.ahead trip radius ≤ stop)
    (hbehind : stop < now.placement.behind trip radius) (hstop : stop < trip.stopPaths.length) :
    (marks trip radius before now).filter (·.index == stop) =
      [⟨stop, timeAt before now stop, .arrival⟩, ⟨stop, timeAt before now stop, .departure⟩] := by
  have hstill : ¬((before.placement.atStop? trip radius).isSome = true ∧
      before.placement.atStop? trip radius = now.placement.atStop? trip radius) := by
    rintro ⟨hsome, hsame⟩
    obtain ⟨other, hat⟩ := Option.isSome_iff_exists.mp hsome
    rw [Placement.ahead_of_atStop hat] at hahead
    rw [Placement.behind_of_atStop (hsame.symm.trans hat)] at hbehind
    omega
  have hpassed : before.placement.ahead trip radius ≤ stop ∧
      stop < before.placement.ahead trip radius +
        (min (now.placement.behind trip radius) trip.stopPaths.length -
          before.placement.ahead trip radius) := by
    omega
  rw [marks, if_neg (by simpa using hstill), List.filter_append, List.filter_append,
    filter_left trip radius hahead, filter_reached trip radius hbehind, passed, filter_passing,
    if_pos hpassed]
  rfl

end Told

/-! ## What goes on record -/

section Record

variable (vehicle : VehicleId) (trip : Trip Rat) {before now : Sighting Rat} (radius : Rat)
  (offset : Int)

theorem marks_events (h : comparable before now = true) :
    (events vehicle trip (some before) now radius offset).map StopEvent.mark =
      marks trip radius before now := by
  rw [events, if_pos h]
  exact marks_records vehicle _ offset fun _ hm => index_lt_of_mem_marks hm

/-- The events between two sightings lie between their times and are in order, wherever the two
sightings are. -/
theorem inTime_events (before now : Sighting Rat) : InTime before.time now.time
    ((events vehicle trip (some before) now radius offset).map StopEvent.time) := by
  by_cases h : comparable before now = true
  · have htime : before.time ≤ now.time := by
      simp only [comparable, Bool.and_eq_true, decide_eq_true_eq] at h
      exact h.2
    have htimes : StopEvent.time = Mark.time ∘ StopEvent.mark := rfl
    rw [htimes, ← List.map_map, marks_events vehicle trip radius offset h]
    exact inTime_marks trip radius htime
  · rw [events, if_neg h]
    exact inTime_nil _ _

theorem inTime_shown (before now : Sighting Rat) : InTime before.time now.time
    ((shown vehicle trip radius offset (some before) now).map StopEvent.time) := by
  unfold shown
  split
  · exact inTime_nil _ _
  · exact inTime_events vehicle trip radius offset before now

/-- Of a stop of the trip that was ahead of one sighting and is behind the next one, an arrival and
a departure at the same time go on record. -/
theorem events_of_passed (h : comparable before now = true) {stop : Nat}
    (hahead : before.placement.ahead trip radius ≤ stop)
    (hbehind : stop < now.placement.behind trip radius) (hstop : stop < trip.stopPaths.length) :
    ((events vehicle trip (some before) now radius offset).filter (·.index == stop)).map
        StopEvent.mark =
      [⟨stop, timeAt before now stop, .arrival⟩, ⟨stop, timeAt before now stop, .departure⟩] := by
  rw [← marks_of_passed trip radius hahead hbehind hstop,
    ← marks_events vehicle trip radius offset h, List.filter_map]
  rfl

end Record

end Passage

end NextStop
