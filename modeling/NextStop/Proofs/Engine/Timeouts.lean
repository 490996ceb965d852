import NextStop.Proofs.Board.Installed
import NextStop.Proofs.Engine.StatusLog
import NextStop.Proofs.Engine.Watch

/-!
# Timeouts

Which vehicles does a sweep time out? Those that it watches, that are predictable and that are
due. `Engine.Due` says what that means, apart from how a verdict is come by: an assignment without
a real vehicle is due when its trip should have begun long ago, and any other vehicle when it has
been silent for too long, unless it may still wait at a stop. The others keep their state and
their predictions, `Engine.performAll_sweep_due`.
-/

namespace NextStop

namespace Engine

variable {α : Type} [Scalar α]

/-- A vehicle that was last heard of at `last` is due to time out. Deadlines beyond the last time
there is are never past. -/
inductive Due (s : Settings α) (v : Vehicle α) (last now : Int) : Prop
  /-- An assignment without a real vehicle is past its first scheduled departure. -/
  | begun {t : Trip α} {p : Placement α} {departure : Int} (hscheduled : v.scheduleBased = true)
      (ht : v.trip = some t) (hp : v.placement = some p)
      (hdeparture : t.scheduledTime? 0 p.serviceDay = some departure)
      (hpast : Time.later departure (Span.ofSeconds s.scheduleGrace) < now)
  /-- Any other vehicle is silent, and if it is at a wait stop of a trip with a timetable, then
  at a stop whose scheduled departure is past as well. -/
  | silent (hreal : v.scheduleBased = false)
      (hsilent : Time.later last (Span.ofSeconds s.silenceLimit) < now)
      (hleft : v.atWaitStop = true → ∀ (t : Trip α) (p : Placement α), v.trip = some t →
        v.placement = some p → t.frequencyBased = false → ∃ (stop : Nat) (departure : Int),
          p.atStop? t s.defaultRadius = some stop ∧
            t.scheduledTime? stop p.serviceDay = some departure ∧
            Time.later departure (Span.ofSeconds s.waitStopGrace) < now)

/-! ## The verdict -/

variable {s : Settings α} {v : Vehicle α} {last now : Int}

theorem verdictScheduled_timeOut_iff (hscheduled : v.scheduleBased = true) :
    (∃ cause, verdictScheduled s v now = .timeOut cause) ↔ Due s v last now := by
  unfold verdictScheduled
  constructor
  · rintro ⟨cause, hcause⟩
    split at hcause
    · contradiction
    · rename_i departure hdeparture
      obtain ⟨t, ht, hp⟩ := Option.bind_eq_some_iff.mp hdeparture
      obtain ⟨p, hp, htime⟩ := Option.bind_eq_some_iff.mp hp
      split at hcause
      · rename_i hpast
        exact .begun hscheduled ht hp htime hpast
      · contradiction
  · rintro (⟨-, ht, hp, hdeparture, hpast⟩ | ⟨hreal, -, -⟩)
    · simp only [ht, hp, Option.bind_some, hdeparture]
      exact ⟨_, if_pos hpast⟩
    · exact absurd (hreal.symm.trans hscheduled) Bool.false_ne_true

/-- A silent vehicle times out unless it waits at a stop whose departure is not past. -/
theorem verdictSilent_timeOut_iff (hreal : v.scheduleBased = false)
    (hsilent : Time.later last (Span.ofSeconds s.silenceLimit) < now) :
    (∃ cause, verdictSilent s v last now = .timeOut cause) ↔ Due s v last now := by
  unfold verdictSilent
  dsimp only
  constructor
  · rintro ⟨cause, hcause⟩
    refine .silent hreal hsilent ?_
    intro hwaits t p ht hp htimetable
    simp only [hwaits, ht, hp, htimetable, Bool.not_true, Bool.false_eq_true, if_false] at hcause
    split at hcause
    · contradiction
    · rename_i departure hheld
      obtain ⟨stop, hstop, hdeparture⟩ := Option.bind_eq_some_iff.mp hheld
      split at hcause
      · rename_i hpast
        exact ⟨stop, departure, hstop, hdeparture, hpast⟩
      · contradiction
  · rintro (⟨hscheduled, -, -, -, -⟩ | ⟨-, -, hleft⟩)
    · exact absurd (hreal.symm.trans hscheduled) Bool.false_ne_true
    · split
      · exact ⟨_, rfl⟩
      · rename_i hwaits
        rw [Bool.not_eq_true, Bool.not_eq_false'] at hwaits
        split
        · rename_i t p ht hp
          split
          · exact ⟨_, rfl⟩
          · rename_i htimetable
            obtain ⟨stop, departure, hstop, hdeparture, hpast⟩ :=
              hleft hwaits t p ht hp (Bool.eq_false_iff.mpr htimetable)
            have hheld : heldUntil? s t p = some departure :=
              Option.bind_eq_some_iff.mpr ⟨stop, hstop, hdeparture⟩
            rw [hheld]
            exact ⟨_, if_pos hpast⟩
        · exact ⟨_, rfl⟩

/-- The verdict on a vehicle is a timeout exactly if it is predictable and due. -/
theorem verdict_timeOut_iff :
    (∃ cause, verdict s v last now = .timeOut cause) ↔
      v.predictable = true ∧ Due s v last now := by
  refine ⟨?_, ?_⟩
  · rintro ⟨cause, hcause⟩
    have hpredictable := predictable_of_verdict_timeOut hcause
    refine ⟨hpredictable, ?_⟩
    simp only [verdict, hpredictable, Bool.not_true, Bool.false_eq_true, if_false] at hcause
    split at hcause
    · rename_i hscheduled
      exact (verdictScheduled_timeOut_iff hscheduled).mp ⟨cause, hcause⟩
    · rename_i hreal
      split at hcause
      · rename_i hsilent
        exact (verdictSilent_timeOut_iff (Bool.eq_false_iff.mpr hreal)
          (of_decide_eq_true hsilent)).mp ⟨cause, hcause⟩
      · contradiction
  · rintro ⟨hpredictable, hdue⟩
    simp only [verdict, hpredictable, Bool.not_true, Bool.false_eq_true, if_false]
    split
    · rename_i hscheduled
      exact (verdictScheduled_timeOut_iff hscheduled).mpr hdue
    · rename_i hreal
      have hsilent : Time.later last (Span.ofSeconds s.silenceLimit) < now := by
        cases hdue with
        | begun hscheduled => exact absurd hscheduled hreal
        | silent _ hsilent _ => exact hsilent
      rw [if_pos (show isSilent s last now = true from decide_eq_true hsilent)]
      exact (verdictSilent_timeOut_iff (Bool.eq_false_iff.mpr hreal) hsilent).mpr hdue

end Engine

/-! ## The sweep of one vehicle -/

namespace Standing

variable {α : Type} [Scalar α]

/-- The vehicle is watched, known and predictable, and it is due. It was last heard of at the
watched time or at that of its last report, whichever is later. -/
def TimesOut (s : Settings α) (now : Int) (x : Standing α) : Prop :=
  ∃ (v : Vehicle α) (watched : Int), x.known = some v ∧ x.heard = some watched ∧
    v.predictable = true ∧
    Engine.Due s v (max watched ((v.lastReport.map Report.time).getD watched)) now

omit [Scalar α] in
theorem lastHeard_eq_max (v : Vehicle α) (watched : Int) :
    Engine.lastHeard v watched = max watched ((v.lastReport.map Report.time).getD watched) := by
  rw [Engine.lastHeard]
  cases v.lastReport with
  | none => exact (Int.max_self watched).symm
  | some r => rfl

theorem timesOut_iff {s : Settings α} {now : Int} {x : Standing α} :
    x.TimesOut s now ↔
      ∃ v cause, x.known = some v ∧ x.verdict? s now = some (.timeOut cause) := by
  constructor
  · rintro ⟨v, watched, hv, hheard, hdue⟩
    rw [← lastHeard_eq_max] at hdue
    obtain ⟨cause, hcause⟩ := Engine.verdict_timeOut_iff.mpr hdue
    exact ⟨v, cause, hv, by rw [verdict?_of_heard hheard hv, hcause]⟩
  · rintro ⟨v, cause, hv, hverdict⟩
    obtain ⟨watched, hheard, -⟩ := Option.map_eq_some_iff.mp hverdict
    rw [verdict?_of_heard hheard hv] at hverdict
    have hdue := Engine.verdict_timeOut_iff.mp ⟨cause, Option.some.inj hverdict⟩
    rw [lastHeard_eq_max] at hdue
    exact ⟨v, watched, hv, hheard, hdue⟩

/-- A vehicle that times out is demoted, its predictions go, and it is watched no more. -/
theorem TimesOut.sweep {s : Settings α} {now : Int} {x : Standing α} (h : x.TimesOut s now) :
    ∃ (v : Vehicle α) (cause : TimeoutCause), x.known = some v ∧
      x.timeoutEvent? s now = some (v.demote .timeout cause.description now).2 ∧
      (x.sweep s now).known = some (v.demote .timeout cause.description now).1 ∧
      (x.sweep s now).heard = none ∧ (x.sweep s now).listed = [] := by
  obtain ⟨v, cause, hv, hverdict⟩ := timesOut_iff.mp h
  refine ⟨v, cause, hv, by simp [timeoutEvent?, hverdict, hv],
    known_sweep_of_timeOut hverdict hv, ?_, ?_⟩
  · simp only [Standing.sweep, hverdict, hv, Option.elim_some, timeOut]
    split <;> rfl
  · simp only [Standing.sweep, hverdict, hv, Option.elim_some, timeOut]
    split <;> rfl

/-- A sweep brings no event for any other vehicle, and leaves its state and predictions alone. -/
theorem sweep_of_not_timesOut {s : Settings α} {now : Int} {x : Standing α}
    (h : ¬x.TimesOut s now) :
    x.timeoutEvent? s now = none ∧ (x.sweep s now).known = x.known ∧
      (x.sweep s now).listed = x.listed := by
  rcases hverdict : x.verdict? s now with _ | _ | _ | _ | cause
  · simp [timeoutEvent?, Standing.sweep, hverdict]
  · simp [timeoutEvent?, Standing.sweep, hverdict, catchUp]
  · simp [timeoutEvent?, Standing.sweep, hverdict, unwatch]
  · simp [timeoutEvent?, Standing.sweep, hverdict, unwatch, unpublish]
  · cases hv : x.known with
    | none => simp [timeoutEvent?, Standing.sweep, hverdict, hv]
    | some v => exact absurd (timesOut_iff.mpr ⟨v, cause, hv, hverdict⟩) h

end Standing

namespace Engine

variable {α : Type} [Scalar α]

/-- The timeout of a vehicle names it. -/
theorem vehicle_of_timeoutEvent? {e : Engine α} (hfiled : e.Filed) (now : Int) (id : VehicleId) :
    ∀ ev ∈ (e.standing id).timeoutEvent? e.settings now, ev.vehicle = id := fun ev hev =>
  (Move.swept now).vehicle_of_mem (hfiled id) ev (Option.mem_toList.mpr hev)

/-- Of the timeouts of different vehicles, those of one vehicle are its own. -/
theorem filter_timeoutEvents {e : Engine α} (hfiled : e.Filed) (now : Int) (id : VehicleId)
    {ids : List VehicleId} (hids : ids.Nodup) :
    (ids.filterMap fun other => (e.standing other).timeoutEvent? e.settings now).filter
        (fun ev => ev.vehicle = id) =
      if id ∈ ids then ((e.standing id).timeoutEvent? e.settings now).toList else [] := by
  induction ids with
  | nil => rfl
  | cons other rest ih =>
    obtain ⟨hnew, hrest⟩ := List.nodup_cons.mp hids
    have hself := vehicle_of_timeoutEvent? hfiled now other
    by_cases hid : other = id
    · subst hid
      rw [if_neg hnew] at ih
      rw [if_pos List.mem_cons_self, List.filterMap_cons]
      cases hevent : (e.standing other).timeoutEvent? e.settings now with
      | none => exact ih hrest
      | some ev => simp [ih hrest, hself ev hevent]
    · rw [List.filterMap_cons]
      cases hevent : (e.standing other).timeoutEvent? e.settings now with
      | none => simp [ih hrest, Ne.symm hid]
      | some ev => simp [ih hrest, hself ev hevent, hid, Ne.symm hid]

/-- Of the events of a sweep, those of one vehicle are its timeout. -/
theorem filter_events_sweep {e : Engine α} (hfiled : e.Filed) (now : Int) (id : VehicleId) :
    (e.sweep now).1.filter (fun ev => ev.vehicle = id) =
      ((e.standing id).timeoutEvent? e.settings now).toList := by
  have hids := filter_timeoutEvents hfiled now id e.watches_toList.nodup
  rw [List.filterMap_map] at hids
  rw [events_sweep hfiled]
  refine hids.trans ?_
  split
  · rfl
  · rename_i hunwatched
    have hheard : (e.standing id).heard = none := by
      rwa [mem_watched_iff, not_not] at hunwatched
    simp [Standing.timeoutEvent?, Standing.verdict?, hheard]

/-- In any engine that a run of calls leads to, a sweep times out exactly the watched vehicles that
are predictable and due. For each of them it brings one event, a timeout at the time of the sweep,
and leaves it unpredictable, unwatched and without predictions; it brings no event for any other
vehicle, and leaves the state and predictions of all others alone, and the statistics. What the
board shows for the stops are the predictions that are left. -/
theorem performAll_sweep_due (settings : Settings α) (timetable : Timetable α)
    (journal : Journal α) (calls : List (Int × Call α)) (now : Int) :
    let e := (start settings timetable journal).performAll calls
    let events := (e.sweep now).1
    let e' := (e.sweep now).2
    (∀ id, (e.standing id).TimesOut settings now →
      (∃ ev, events.filter (fun ev => ev.vehicle = id) = [ev] ∧ ev.kind = .timeout ∧
        ev.time = now) ∧
      (∃ v, e'.vehicles[id]? = some v ∧ v.predictable = false ∧ v.predictions = []) ∧
      id ∉ e'.watch ∧ e'.board.forVehicle id = []) ∧
    (∀ id, ¬(e.standing id).TimesOut settings now →
      events.filter (fun ev => ev.vehicle = id) = [] ∧
      e'.vehicles[id]? = e.vehicles[id]? ∧
      e'.board.forVehicle id = e.board.forVehicle id) ∧
    e'.board.Shows e'.board.byVehicle.keys e'.board.forVehicle ∧
    e'.statistics = e.statistics := by
  intro e events e'
  have hfiled : e.Filed := (Filed.start settings timetable journal).performAll calls
  have hsettings : e.settings = settings :=
    settings_performAll (Filed.start settings timetable journal) calls
  have hstanding : ∀ id, e'.standing id = (e.standing id).sweep settings now := by
    intro id
    rw [← hsettings]
    exact standing_sweep hfiled now id
  have hevents : ∀ id, events.filter (fun ev => ev.vehicle = id) =
      ((e.standing id).timeoutEvent? settings now).toList := by
    intro id
    rw [← hsettings]
    exact filter_events_sweep hfiled now id
  have hsound : e'.board.Sound := by
    have hafter := sound_performAll settings timetable journal (calls ++ [(now, .sweep)])
    rwa [performAll_append] at hafter
  refine ⟨?_, ?_, hsound.shows_keys, (e.sameBasis_sweep now).statistics⟩
  · intro id htimesOut
    obtain ⟨v, cause, -, hevent, hknown, hheard, hlisted⟩ := htimesOut.sweep
    rw [← hstanding] at hknown hheard hlisted
    refine ⟨⟨(v.demote .timeout cause.description now).2, ?_, rfl, rfl⟩,
      ⟨_, hknown, rfl, rfl⟩, ?_, hlisted⟩
    · rw [hevents, hevent, Option.toList_some]
    · intro hwatched
      obtain ⟨last, hlast⟩ := Table.mem_iff.mp hwatched
      exact absurd (hheard.symm.trans hlast) (by simp)
  · intro id hkept
    obtain ⟨hevent, hknown, hlisted⟩ := Standing.sweep_of_not_timesOut hkept
    rw [← hstanding] at hknown hlisted
    refine ⟨?_, hknown, hlisted⟩
    rw [hevents, hevent, Option.toList_none]

/-- The bus was last heard of at 0 and may be silent for six minutes. -/
example :
    let e := (start .standard (.ofTrips [twoStops]) (.kept #[])).performAll busAndTram
    (e.sweep 360000).1.map (·.vehicle) = [] ∧ (e.sweep 360001).1.map (·.vehicle) = ["bus"] := by
  decide +kernel

end Engine

end NextStop
