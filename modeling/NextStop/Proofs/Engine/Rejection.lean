import NextStop.Proofs.Engine.Steps

/-!
# Rejected reports

A report is rejected for one of two reasons. A trip that the timetable does not have is noticed
before anything is changed. A stop path that the trip does not have is noticed only when the
vehicle was placed: the vehicle keeps that placement and is watched, but neither the statistics
nor what the public sees learns of it, `Engine.performAll_take_rejected`. The third error, for a
vehicle that is not ready to be processed, never comes up, since placing a vehicle makes it so.
-/

namespace NextStop

namespace Engine

variable {α : Type} [Scalar α]

/-- What a report changes that is placed on a stop path which its trip does not have: the state
of its vehicle and the watch over it, and at most a change of status goes on record. -/
structure Strands (e : Engine α) (id : VehicleId) (e' : Engine α) : Prop where
  board_eq : e'.board = e.board
  live_eq : e'.live = e.live
  statistics_eq : e'.statistics = e.statistics
  timetable_eq : e'.timetable = e.timetable
  alarm_eq : e'.alarm = e.alarm
  others : ∀ other, other ≠ id → e'.vehicles[other]? = e.vehicles[other]? ∧
    e'.watch[other]? = e.watch[other]?
  recorded : e'.journal = e.journal ∨ ∃ ev : StatusEvent, ev.kind = .predictable ∧
    ev.vehicle = id ∧ e'.journal = e.journal.append (.status ev)

theorem strands_takePlaced {e : Engine α} (hfiled : e.Filed) (now : Int) {r : Report α}
    (hlead : r.inConsist = false) {p : Placement α} {t : Trip α} (scheduleBased : Bool)
    (hout : t.stopPath? p.index = none) :
    e.Strands r.vehicle (e.takePlaced now r p t scheduleBased).2 := by
  have hstep := step_rejected r p t scheduleBased hfiled hout
  have hothers : ∀ other, other ≠ r.vehicle → _ = e.standing other := fun other hne =>
    hstep.others other (Ne.symm hne)
  rw [takePlaced_eq r p t scheduleBased e now hlead, if_pos hout]
  cases hevent : ((e.vehicle r.vehicle).place r p t).2 with
  | none =>
    rw [hevent] at hothers
    refine ⟨rfl, rfl, rfl, rfl, rfl, ?_, Or.inl rfl⟩
    intro other hne
    exact ⟨congrArg Standing.known (hothers other hne), congrArg Standing.heard (hothers other hne)⟩
  | some ev =>
    rw [hevent] at hothers
    obtain ⟨hkind, hvehicle⟩ := Vehicle.place_event hevent
    refine ⟨rfl, rfl, rfl, rfl, rfl, ?_, Or.inr ⟨ev, hkind, ?_, rfl⟩⟩
    · intro other hne
      exact ⟨congrArg Standing.known (hothers other hne),
        congrArg Standing.heard (hothers other hne)⟩
    · rw [hvehicle]
      exact hfiled.vehicle_id r.vehicle

/-- After any run of calls, no report meets a vehicle that is not ready for it. A report of a
coupled vehicle, or on a trip that is unknown, leaves the engine exactly as it was. A report
beyond the end of its trip changes what is known of its vehicle and the watch over it, and nothing
else; at most one change of status goes on record, by which the vehicle became predictable. -/
theorem performAll_take_rejected (settings : Settings α) (timetable : Timetable α)
    (journal : Journal α) (calls : List (Int × Call α)) (now : Int) (m : MatchedReport α) :
    let e := (start settings timetable journal).performAll calls
    let taken := e.take now m
    (∀ vehicle detail, taken.1 ≠ .error (.invariantViolation vehicle detail)) ∧
    (m.report.inConsist = true → taken = (.ok .nothing, e)) ∧
    (∀ trip, taken.1 = .error (.unknownTrip trip) → taken.2 = e) ∧
    ∀ trip index length, taken.1 = .error (.stopPathOutOfRange trip index length) →
      e.Strands m.report.vehicle taken.2 := by
  intro e taken
  have hfiled : e.Filed := (Filed.start settings timetable journal).performAll calls
  rcases e.take_cases now m with
    ⟨hcoupled, htake⟩ | ⟨hlead, -, htake⟩ | ⟨p, hlead, -, -, htake⟩ | ⟨p, t, hlead, -, -, htake⟩
  · simp [taken, htake]
  · simp [taken, htake, hlead]
  · simp [taken, htake, hlead]
  · have hresult := takePlaced_result m.report p t m.scheduleBased e now hlead
    rw [← htake] at hresult
    by_cases hout : t.stopPath? p.index = none
    · have hstrands := strands_takePlaced hfiled now hlead m.scheduleBased hout
      rw [← htake] at hstrands
      rw [if_pos hout] at hresult
      exact ⟨by simp [taken, hresult], by simp [hlead], by simp [taken, hresult],
        fun _ _ _ _ => hstrands⟩
    · rw [if_neg hout] at hresult
      simp [taken, hresult, hlead]

/-- After `busAndTram`, the tram is placed beyond the end of the line, then on a trip that is not
in the timetable, and then it is coupled. Only the first of these reports is remembered, and by
it the tram became predictable; the public sees the bus only. -/
theorem performAll_take_rejected_tram :
    let e := (start .standard (.ofTrips [twoStops]) (.kept #[])).performAll busAndTram
    let reported (trip : TripId) (coupled : Bool) : MatchedReport Rat :=
      ⟨⟨"tram", 30000, 0, 0, coupled⟩, some ⟨trip, "block", 0, 2, 0, 500⟩, false⟩
    let beyond := e.take 30000 (reported "line" false)
    beyond.1 = .error (.stopPathOutOfRange "line" 2 2) ∧ e.Strands "tram" beyond.2 ∧
      (beyond.2.vehicle "tram").predictable = true ∧ beyond.2.live.keys = ["bus"] ∧
      (e.take 30000 (reported "loop" false)).1 = .error (.unknownTrip "loop") ∧
      (e.take 30000 (reported "loop" false)).2 = e ∧
      (e.take 30000 (reported "line" true)).2 = e := by
  intro e reported beyond
  have hall := performAll_take_rejected .standard (.ofTrips [twoStops]) (.kept #[]) busAndTram 30000
  have hbeyond : beyond.1 = .error (.stopPathOutOfRange "line" 2 2) := by decide +kernel
  have hunknown : (e.take 30000 (reported "loop" false)).1 = .error (.unknownTrip "loop") := by
    decide +kernel
  obtain ⟨-, -, -, hstrands⟩ := hall (reported "line" false)
  obtain ⟨-, -, hleaves, -⟩ := hall (reported "loop" false)
  obtain ⟨-, hcoupled, -⟩ := hall (reported "line" true)
  exact ⟨hbeyond, hstrands _ _ _ hbeyond, by decide +kernel, by decide +kernel, hunknown,
    hleaves _ hunknown, congrArg Prod.snd (hcoupled rfl)⟩

end Engine

end NextStop
