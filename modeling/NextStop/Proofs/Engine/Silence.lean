import NextStop.Proofs.Engine.Watch

/-!
# Silent vehicles

How long may a predictable vehicle be silent? Not for ever: once it has not been heard of for the
silence limit, and the latest scheduled time on its trip is past by both graces, a sweep makes it
unpredictable, with the exceptions that `Engine.performAll_overdue_iff` names. Each of them takes
a report that was rejected because it was placed on a stop path that the trip does not have.

Such a report leaves the vehicle waiting if it waited before, `Standing.Held`. Then nobody knows
which departure it waits for, and no sweep ends its wait.
-/

namespace NextStop

namespace Time

theorem later_le_later (t : Int) {a b : Int} (ha : 0 ≤ a) (hb : 0 ≤ b) :
    later t a ≤ later (later t a) b ∧ later t b ≤ later (later t a) b := by
  unfold later saturate earliest latest
  omega

end Time

namespace Engine

variable {α : Type}

/-- The end of both graces for a vehicle that is scheduled at `departure`. -/
def graceEnd (s : Settings α) (departure : Int) : Int :=
  Time.later (Time.later departure (Span.ofSeconds s.scheduleGrace))
    (Span.ofSeconds s.waitStopGrace)

theorem scheduleGrace_le_graceEnd (s : Settings α) (departure : Int) :
    Time.later departure (Span.ofSeconds s.scheduleGrace) ≤ graceEnd s departure :=
  (Time.later_le_later departure (Span.ofSeconds_nonneg _) (Span.ofSeconds_nonneg _)).1

theorem waitStopGrace_le_graceEnd (s : Settings α) (departure : Int) :
    Time.later departure (Span.ofSeconds s.waitStopGrace) ≤ graceEnd s departure :=
  (Time.later_le_later departure (Span.ofSeconds_nonneg _) (Span.ofSeconds_nonneg _)).2

theorem scheduledTime?_zero_eq_none_iff (t : Trip α) (day : Int) :
    t.scheduledTime? 0 day = none ↔ t.stopPaths = [] := by
  rw [Trip.scheduledTime?, Option.map_eq_none_iff, Trip.stopPath?_eq_none_iff]
  simp

variable [Scalar α]

/-! ## The verdict on an overdue vehicle -/

/-- A vehicle at a wait stop has a scheduled departure. -/
theorem heldUntil?_of_waits {s : Settings α} {f : Fix α} (h : f.waits s = true) :
    (heldUntil? s f.trip f.placement).isSome = true := by
  unfold Fix.waits at h
  unfold heldUntil?
  cases hstop : f.placement.atStop? f.trip s.defaultRadius with
  | none => simp [hstop] at h
  | some stop =>
    cases hpath : f.trip.stopPath? stop with
    | none => simp [hstop, hpath] at h
    | some path => simp [Trip.scheduledTime?, hpath]

/-- A placement that its trip does not have is at no stop. -/
theorem heldUntil?_eq_none {s : Settings α} {t : Trip α} {p : Placement α}
    (h : t.stopPath? p.index = none) : heldUntil? s t p = none := by
  simp [heldUntil?, Placement.atStop?, h]

variable {s : Settings α} {v : Vehicle α} {p : Placement α} {t : Trip α} {last now : Int}

omit [Scalar α] in
/-- Past all graces, an assignment without a real vehicle stays only on a trip without stops. -/
theorem verdictScheduled_of_overdue (hp : v.placement = some p) (ht : v.trip = some t)
    (hpast : ∀ i departure, t.scheduledTime? i p.serviceDay = some departure →
      graceEnd s departure < now) :
    verdictScheduled s v now = .keep ↔ t.stopPaths = [] := by
  rw [← scheduledTime?_zero_eq_none_iff t p.serviceDay]
  simp only [verdictScheduled, hp, ht, Option.bind_some]
  cases hdeparture : t.scheduledTime? 0 p.serviceDay with
  | none => simp
  | some departure =>
    have hgrace := scheduleGrace_le_graceEnd s departure
    have hover := hpast 0 departure hdeparture
    have hdue : Time.later departure (Span.ofSeconds s.scheduleGrace) < now := by omega
    simp [hdue]

/-- Past all graces, a silent vehicle is kept only where it waits for a departure that nobody
knows. -/
theorem verdictSilent_of_overdue (hp : v.placement = some p) (ht : v.trip = some t)
    (hpast : ∀ i departure, t.scheduledTime? i p.serviceDay = some departure →
      graceEnd s departure < now) :
    verdictSilent s v last now = .keep ↔
      v.atWaitStop = true ∧ t.frequencyBased = false ∧ heldUntil? s t p = none := by
  simp only [verdictSilent, hp, ht]
  cases hwaits : v.atWaitStop
  · simp
  · cases hfrequency : t.frequencyBased
    · cases hheld : heldUntil? s t p with
      | none => simp
      | some departure =>
        obtain ⟨stop, -, hdeparture⟩ := Option.bind_eq_some_iff.mp hheld
        have hgrace := waitStopGrace_le_graceEnd s departure
        have hover := hpast stop departure hdeparture
        have hdue : Time.later departure (Span.ofSeconds s.waitStopGrace) < now := by omega
        simp [hdue]
    · simp

/-- The verdict on a predictable vehicle that is silent and past all graces. -/
theorem verdict_of_overdue (hpredictable : v.predictable = true) (hp : v.placement = some p)
    (ht : v.trip = some t)
    (hsilent : Time.later last (Span.ofSeconds s.silenceLimit) < now)
    (hpast : ∀ i departure, t.scheduledTime? i p.serviceDay = some departure →
      graceEnd s departure < now) :
    verdict s v last now = .keep ↔
      v.scheduleBased = true ∧ t.stopPaths = [] ∨
        v.scheduleBased = false ∧ v.atWaitStop = true ∧ t.frequencyBased = false ∧
          heldUntil? s t p = none := by
  have hsilence : isSilent s last now = true := by
    simpa [isSilent] using hsilent
  unfold verdict
  cases hscheduled : v.scheduleBased
  · simpa [hpredictable, hsilence] using verdictSilent_of_overdue hp ht hpast
  · simpa [hpredictable] using verdictScheduled_of_overdue hp ht hpast

end Engine

/-! ## Vehicles that wait -/

namespace Standing

variable {α : Type} [Scalar α]

/-- A predictable vehicle that waits has a scheduled departure, if its trip has the stop path that
it is on. -/
def Held (s : Settings α) (x : Standing α) : Prop :=
  ∀ (v : Vehicle α) (p : Placement α) (t : Trip α), x.known = some v → v.predictable = true →
    v.placement = some p → v.trip = some t → v.atWaitStop = true →
      t.stopPath? p.index ≠ none → Engine.heldUntil? s t p ≠ none

theorem Held.move {s : Settings α} {id : VehicleId} {x y : Standing α}
    {events : List StatusEvent} (h : x.Held s) (hmove : Move s id x events y) : y.Held s := by
  intro v p t hv hpredictable hp ht hwaits hon
  cases hmove with
  | rest => exact h v p t hv hpredictable hp ht hwaits hon
  | rejected r q u scheduleBased hout =>
    -- the new placement is not on the trip, so there is nothing to show
    obtain ⟨lastEvent, hplace⟩ := (x.vehicle id).place_eq r q u
    obtain rfl := Option.some.inj hv
    rw [hplace] at hp ht
    obtain rfl := Option.some.inj hp
    obtain rfl := Option.some.inj ht
    exact absurd hout hon
  | processed r q u scheduleBased w predictions listed headway hin hw hlisted =>
    obtain ⟨lastEvent, hplace⟩ := (x.vehicle id).place_eq r q u
    obtain rfl := Option.some.inj hv
    rw [hw, hplace] at hp ht
    rw [hw] at hwaits
    obtain rfl := Option.some.inj hp
    obtain rfl := Option.some.inj ht
    exact Option.isSome_iff_ne_none.mp (Engine.heldUntil?_of_waits hwaits)
  | unplaced r hidle =>
    obtain rfl := Option.some.inj hv
    exact absurd (hidle.symm.trans hpredictable) Bool.false_ne_true
  | misplaced r w event hbefore hdemote =>
    obtain rfl := Option.some.inj hv
    obtain rfl : _ = w := congrArg Prod.fst hdemote
    contradiction
  | unassigned now w hknown =>
    obtain rfl := Option.some.inj hv
    contradiction
  | swept now =>
    rcases known_sweep s now x with ⟨-, hsame⟩ | ⟨w, cause, -, -, -, hdemoted⟩
    · exact h v p t (hsame ▸ hv) hpredictable hp ht hwaits hon
    · rw [hdemoted] at hv
      obtain rfl := Option.some.inj hv
      contradiction

end Standing

namespace Engine

variable {α : Type} [Scalar α]

theorem held_performAll (settings : Settings α) (timetable : Timetable α) (journal : Journal α)
    (calls : List (Int × Call α)) (id : VehicleId) :
    (((start settings timetable journal).performAll calls).standing id).Held settings := by
  refine performAll_move_induction (P := fun _ x => x.Held settings)
    (fun h hmove => h.move hmove) (Filed.start settings timetable journal) rfl ?_ calls id
  intro id v p t hv
  rw [standing_start] at hv
  contradiction

/-- Take any engine that a run of calls leads to, rejected reports included, and a predictable
vehicle in it that was last heard of at `last`. At a time past the silence limit and, for every
stop of its trip, past the scheduled time and both graces, a sweep leaves the vehicle predictable
exactly if its latest placement is not on its trip, which means that the report was rejected, and

* it is an assignment without a real vehicle, on a trip without stops, or
* it still waits where an earlier report placed it, on a trip with a timetable. -/
theorem performAll_overdue_iff (settings : Settings α) (timetable : Timetable α)
    (journal : Journal α) (calls : List (Int × Call α)) {id : VehicleId} {v : Vehicle α}
    {p : Placement α} {t : Trip α} {last now : Int}
    (hv : ((start settings timetable journal).performAll calls).vehicles[id]? = some v)
    (hpredictable : v.predictable = true)
    (hlast : ((start settings timetable journal).performAll calls).watch[id]? = some last)
    (hp : v.placement = some p) (ht : v.trip = some t)
    (hsilent : Time.later last (Span.ofSeconds settings.silenceLimit) < now)
    (hpast : ∀ (i : Nat) (departure : Int), t.scheduledTime? i p.serviceDay = some departure →
      graceEnd settings departure < now) :
    ((((start settings timetable journal).performAll calls).sweep now).2.vehicle
        id).predictable = true ↔
      t.stopPath? p.index = none ∧
        (v.scheduleBased = true ∧ t.stopPaths = [] ∨
          v.scheduleBased = false ∧ v.atWaitStop = true ∧ t.frequencyBased = false) := by
  have htracked := tracked_performAll settings timetable journal calls id
  have hheld : (((start settings timetable journal).performAll calls).standing id).Held settings :=
    held_performAll settings timetable journal calls id
  have hfiled := (Filed.start settings timetable journal).performAll calls
  have hsettings : ((start settings timetable journal).performAll calls).settings = settings :=
    settings_performAll (Filed.start settings timetable journal) calls
  generalize (start settings timetable journal).performAll calls = e at *
  obtain ⟨r, heard, hr, hheard, hle⟩ := htracked v hv hpredictable
  obtain rfl : last = heard := Option.some.inj (hlast.symm.trans hheard)
  have hlatest : lastHeard v last = last := by
    rw [lastHeard, hr]
    exact Int.max_eq_left hle
  have hswept : ((e.sweep now).2.vehicle id).predictable = true ↔
      verdict settings v last now = .keep := by
    have hiff := (e.standing id).predictable_sweep_iff hlast hv hpredictable settings now id
    rwa [hlatest, ← hsettings, ← standing_sweep hfiled, hsettings] at hiff
  have hstray : v.atWaitStop = true →
      (heldUntil? settings t p = none ↔ t.stopPath? p.index = none) := by
    intro hwaits
    refine ⟨?_, heldUntil?_eq_none⟩
    intro hnone
    by_contra hon
    exact hheld v p t hv hpredictable hp ht hwaits hon hnone
  have hbare : t.stopPaths = [] → t.stopPath? p.index = none := by
    intro hempty
    rw [Trip.stopPath?_eq_none_iff, hempty]
    exact Nat.zero_le _
  rw [hswept, verdict_of_overdue hpredictable hp ht hsilent hpast]
  constructor
  · rintro (⟨hscheduled, hempty⟩ | ⟨hreal, hwaits, htimetable, hnone⟩)
    · exact ⟨hbare hempty, Or.inl ⟨hscheduled, hempty⟩⟩
    · exact ⟨(hstray hwaits).mp hnone, Or.inr ⟨hreal, hwaits, htimetable⟩⟩
  · rintro ⟨hstop, ⟨hscheduled, hempty⟩ | ⟨hreal, hwaits, htimetable⟩⟩
    · exact Or.inl ⟨hscheduled, hempty⟩
    · exact Or.inr ⟨hreal, hwaits, htimetable, (hstray hwaits).mpr hstop⟩

/-- The ferry of `overrun` waited before its second report was rejected. It is predictable a day
later, when its trip is long over. -/
theorem performAll_overdue_iff_overrun :
    let e := (start .standard (.ofTrips [crossing]) (.kept #[])).performAll overrun
    e.watch["ferry"]? = some 710000 ∧
      Time.later 710000 (Span.ofSeconds (Settings.standard (α := Rat)).silenceLimit) < 87110000 ∧
      (∀ i departure, crossing.scheduledTime? i 0 = some departure →
        graceEnd (Settings.standard (α := Rat)) departure < 87110000) ∧
      ((e.sweep 87110000).2.vehicle "ferry").predictable = true := by
  intro e
  have hlast : e.watch["ferry"]? = some 710000 := by decide +kernel
  have hsilent : Time.later 710000
      (Span.ofSeconds (Settings.standard (α := Rat)).silenceLimit) < 87110000 := by decide
  have hpast : ∀ i departure, crossing.scheduledTime? i 0 = some departure →
      graceEnd (Settings.standard (α := Rat)) departure < 87110000 := by
    intro i departure hdeparture
    match i with
    | 0 =>
      obtain rfl : 1000000 = departure := Option.some.inj hdeparture
      decide
    | 1 =>
      obtain rfl : 1060000 = departure := Option.some.inj hdeparture
      decide
    | i + 2 => contradiction
  have hferry : (e.vehicles["ferry"]?).map (fun v => (v.predictable, v.placement, v.trip,
      v.scheduleBased, v.atWaitStop)) =
      some (true, some ⟨"crossing", "block", 0, 2, 0, 500⟩, some crossing, false, true) := by
    decide +kernel
  obtain ⟨v, hv, hfields⟩ := Option.map_eq_some_iff.mp hferry
  simp only [Prod.mk.injEq] at hfields
  obtain ⟨hpredictable, hp, ht, hreal, hwaits⟩ := hfields
  refine ⟨hlast, hsilent, hpast, ?_⟩
  exact (performAll_overdue_iff .standard (.ofTrips [crossing]) (.kept #[]) overrun hv hpredictable
    hlast hp ht hsilent hpast).mpr ⟨rfl, Or.inr ⟨hreal, hwaits, rfl⟩⟩

end Engine

end NextStop
