import NextStop.Proofs.Board.Installed
import NextStop.Proofs.Engine.Effect
import NextStop.Proofs.Engine.Watch

/-!
# Current predictions

The predictions of a vehicle on the board all come from one of its reports. This is its latest one,
and the trip is the one that the vehicle is on, unless the vehicle was then placed on a stop path
which its trip does not have: such a report is rejected only after the vehicle was placed, and
leaves the predictions of the report before it on the board.
-/

namespace NextStop

variable {α : Type}

/-- The predictions on the board are for the vehicle, which is predictable, and come from one of
its reports; from the latest one if this was placed within the trip. There are none if only arrivals
and departures are asked for. -/
structure Standing.Current (s : Settings α) (id : VehicleId) (x : Standing α) : Prop where
  listed_eq_nil : s.stopEventsOnly = true → x.listed = []
  vehicle_eq : ∀ p ∈ x.listed, p.vehicle = id
  together : ∀ p ∈ x.listed, ∀ q ∈ x.listed, q.trip = p.trip ∧ q.reportTime = p.reportTime
  situation : x.listed ≠ [] → ∃ (v : Vehicle α) (q : Placement α) (t : Trip α) (r : Report α),
    x.known = some v ∧ v.predictable = true ∧ v.placement = some q ∧ v.trip = some t ∧
      v.lastReport = some r ∧ (t.stopPath? q.index ≠ none →
        ∀ p ∈ x.listed, p.trip = q.trip ∧ p.reportTime = r.time)

namespace Standing

theorem Current.of_nil {s : Settings α} {id : VehicleId} {x : Standing α} (h : x.listed = []) :
    x.Current s id := by
  constructor <;> simp [h]

/-- Only what is known and what is on the board matters. -/
theorem Current.congr {s : Settings α} {id : VehicleId} {x y : Standing α} (h : x.Current s id)
    (hknown : y.known = x.known) (hlisted : y.listed = x.listed) : y.Current s id := by
  constructor
  · rw [hlisted]
    exact h.listed_eq_nil
  · rw [hlisted]
    exact h.vehicle_eq
  · rw [hlisted]
    exact h.together
  · rw [hlisted, hknown]
    exact h.situation

/-- A vehicle that is not predictable has no predictions on the board. -/
theorem Current.listed_of_idle {s : Settings α} {id : VehicleId} {x : Standing α}
    (h : x.Current s id) (hidle : (x.vehicle id).predictable = false) : x.listed = [] := by
  by_contra hlisted
  obtain ⟨v, -, -, -, hknown, hpredictable, -⟩ := h.situation hlisted
  rw [vehicle, hknown, Option.getD_some, hpredictable] at hidle
  contradiction

variable [Scalar α]

/-- A sweep leaves the vehicle and its predictions alone, or takes the predictions off the board. -/
theorem listed_sweep (s : Settings α) (now : Int) (x : Standing α) :
    (x.sweep s now).known = x.known ∧ (x.sweep s now).listed = x.listed ∨
      (x.sweep s now).listed = [] := by
  rcases hverdict : x.verdict? s now with _ | _ | _ | _ | cause
  · exact Or.inl (by simp [sweep, hverdict])
  · exact Or.inl (by simp [sweep, hverdict, catchUp])
  · exact Or.inl (by simp [sweep, hverdict, unwatch])
  · exact Or.inl (by simp [sweep, hverdict, unwatch, unpublish])
  · cases hknown : x.known with
    | none => exact Or.inl (by simp [sweep, hverdict, hknown])
    | some v =>
      right
      simp only [sweep, hverdict, hknown, Option.elim_some, timeOut]
      split <;> rfl

omit [Scalar α] in
/-- A report on a stop path that its trip does not have leaves the predictions where they were. -/
theorem Current.rejected {s : Settings α} {id : VehicleId} {x : Standing α} (h : x.Current s id)
    {f : Engine.Fix α} (hout : f.trip.stopPath? f.placement.index = none) (scheduleBased : Bool) :
    (Effect.rejected x f scheduleBased).standing.Current s id := by
  obtain ⟨event, hplaced⟩ := Effect.placed_eq x f scheduleBased
  refine ⟨h.listed_eq_nil, h.vehicle_eq, h.together, fun _ => ?_⟩
  refine ⟨_, f.placement, f.trip, f.report, rfl, ?_, ?_, ?_, ?_, fun hon => absurd hout hon⟩
  · rw [hplaced]
  · rw [hplaced]
  · rw [hplaced]
  · rw [hplaced]

/-- A cycle puts predictions from its report on the board. -/
theorem Current.processed {s : Statistics α} {id : VehicleId} {x : Standing α}
    (h : x.Current s.settings id) (hid : ∀ v, x.known = some v → v.id = id) (now : Int)
    {f : Engine.Fix α} (hf : f.report.vehicle = id) (hname : f.trip.id = f.placement.trip)
    (scheduleBased : Bool) :
    (Effect.processed s x now f scheduleBased).standing.Current s.settings id := by
  cases honly : s.settings.stopEventsOnly with
  | true =>
    have hlisted : (Effect.processed s x now f scheduleBased).standing.listed = x.listed :=
      if_pos honly
    exact Current.of_nil (hlisted.trans (h.listed_eq_nil honly))
  | false =>
    obtain ⟨event, hplaced⟩ := Effect.placed_eq x f scheduleBased
    have hvehicle : (x.vehicle f.report.vehicle).id = id := by
      rw [hf]
      exact x.vehicle_id hid
    have hlisted : (Effect.processed s x now f scheduleBased).standing.listed =
        Yield.predictions s now (Effect.placed x f scheduleBased).1 f :=
      if_neg (Bool.eq_false_iff.mp honly)
    constructor
    · intro honly'
      rw [honly] at honly'
      contradiction
    · intro p hp
      rw [hlisted] at hp
      rw [(Yield.of_mem_predictions hp).1, hplaced, hvehicle]
    · intro p hp q hq
      rw [hlisted] at hp hq
      obtain ⟨-, htrip, htime⟩ := Yield.of_mem_predictions hp
      obtain ⟨-, htrip', htime'⟩ := Yield.of_mem_predictions hq
      exact ⟨htrip'.trans htrip.symm, htime'.trans htime.symm⟩
    · intro _
      refine ⟨Yield.vehicle s now (Effect.placed x f scheduleBased).1 f, f.placement, f.trip,
        f.report, rfl, ?_, ?_, ?_, ?_, ?_⟩
      · rw [Yield.vehicle, hplaced]
      · rw [Yield.vehicle, hplaced]
      · rw [Yield.vehicle, hplaced]
      · rw [Yield.vehicle, hplaced]
      · intro _ p hp
        rw [hlisted] at hp
        obtain ⟨-, htrip, htime⟩ := Yield.of_mem_predictions hp
        exact ⟨htrip.trans hname, htime⟩

/-- Every call keeps predictions current in this sense. -/
theorem Current.perform {tt : Timetable α} (hnamed : tt.Named) {s : Statistics α}
    {id : VehicleId} {x : Standing α} (h : x.Current s.settings id)
    (hid : ∀ v, x.known = some v → v.id = id) (call : Int × Engine.Call α) :
    (x.perform tt s id call).Current s.settings id := by
  obtain ⟨now, call⟩ := call
  cases call with
  | report m =>
    rw [Standing.perform]
    split
    · rename_i hm
      rcases Effect.ofReport_cases tt s x now m with
        ⟨-, heffect⟩ | ⟨-, -, heffect⟩ | ⟨p, -, -, -, heffect⟩ | ⟨p, t, -, -, -, hout, heffect⟩ |
          ⟨p, t, -, -, ht, -, heffect⟩
      · rw [heffect]
        exact h
      · rw [heffect]
        rcases Effect.standing_ofUnplaced x m.report with ⟨hidle, hunplaced⟩ | ⟨-, hunplaced⟩
        · rw [hunplaced]
          exact Current.of_nil (h.listed_of_idle (hm ▸ hidle))
        · rw [hunplaced]
          exact Current.of_nil rfl
      · rw [heffect]
        exact h
      · rw [heffect]
        exact h.rejected hout m.scheduleBased
      · rw [heffect]
        exact h.processed hid now hm (hnamed _ _ ht) m.scheduleBased
    · exact h
  | unassign other =>
    rw [Standing.perform]
    split
    · cases hknown : x.known with
      | none => exact h
      | some v => exact Current.of_nil rfl
    · exact h
  | warmUp history => exact h
  | sweep =>
    rcases listed_sweep s.settings now x with ⟨hknown, hlisted⟩ | hnil
    · exact h.congr hknown hlisted
    · exact Current.of_nil hnil

end Standing

namespace Engine

variable [Scalar α]

/-- After every run of calls, the predictions that the board has for a vehicle are for that vehicle
and come from one report. If the vehicle is on a stop path of its trip, they are for that trip and
come from its latest report. What the board shows for a stop, or of all vehicles, are the
predictions of the vehicles that they name. -/
theorem performAll_predictions_current (settings : Settings α) (timetable : Timetable α)
    (journal : Journal α) (hnamed : timetable.Named) (calls : List (Int × Call α)) :
    let e := (start settings timetable journal).performAll calls
    (∀ (id : VehicleId) (p : Prediction), p ∈ e.board.forVehicle id →
      p.vehicle = id ∧
      (∀ q ∈ e.board.forVehicle id, q.trip = p.trip ∧ q.reportTime = p.reportTime) ∧
      ∃ (v : Vehicle α) (q : Placement α) (t : Trip α) (r : Report α),
        e.vehicles[id]? = some v ∧ v.placement = some q ∧ v.trip = some t ∧
          v.lastReport = some r ∧
          (t.stopPath? q.index ≠ none → p.trip = q.trip ∧ p.reportTime = r.time)) ∧
    (∀ (route : RouteId) (stop : StopId) (p : Prediction), p ∈ e.board.forStop route stop →
      p ∈ e.board.forVehicle p.vehicle ∧ p.route = route ∧ p.stop = stop) ∧
    ∀ p ∈ e.board.all, p ∈ e.board.forVehicle p.vehicle := by
  intro e
  have hcurrent : ∀ id, (e.standing id).Current settings id := by
    refine performAll_standing_induction (t := timetable) ?_
      (Filed.start settings timetable journal) rfl rfl ?_ calls
    · rintro id x s call hid rfl h
      exact h.perform hnamed hid call
    · intro id
      rw [standing_start]
      exact Standing.Current.of_nil rfl
  have hsound : e.board.Sound := sound_performAll settings timetable journal calls
  have hown : ∀ {p : Prediction}, (∃ id, p ∈ e.board.forVehicle id) →
      p ∈ e.board.forVehicle p.vehicle := by
    rintro p ⟨id, hp⟩
    rwa [(hcurrent id).vehicle_eq p hp]
  refine ⟨?_, ?_, ?_⟩
  · intro id p hp
    obtain ⟨v, q, t, r, hv, -, hq, ht, hr, hlatest⟩ :=
      (hcurrent id).situation (List.ne_nil_of_mem hp)
    exact ⟨(hcurrent id).vehicle_eq p hp, (hcurrent id).together p hp, v, q, t, r, hv, hq, ht, hr,
      fun hon => hlatest hon p hp⟩
  · intro route stop p hp
    obtain ⟨hvehicle, hserves⟩ := hsound.mem_forStop hp
    exact ⟨hown hvehicle, hserves⟩
  · intro p hp
    exact hown (hsound.mem_all hp)

/-- The predictions of the ferry come from its first report as long as that is its latest one; the
second report is rejected, and they are still shown. -/
theorem performAll_predictions_current_overrun :
    let timetable := Timetable.ofTrips [crossing]
    let after (calls : List (Int × Call Rat)) :=
      (start .standard timetable (.kept #[])).performAll calls
    timetable.Named ∧
      (∃ p ∈ (after (overrun.take 1)).board.forVehicle "ferry",
        p.stop = "island" ∧ p.vehicle = "ferry" ∧ p.trip = "crossing" ∧ p.reportTime = 700000) ∧
      ∃ p ∈ (after overrun).board.forStop "1" "island",
        p ∈ (after overrun).board.forVehicle "ferry" ∧ p.reportTime = 700000 ∧
          ∃ v r, (after overrun).vehicles["ferry"]? = some v ∧ v.lastReport = some r ∧
            r.time = 710000 := by
  intro timetable after
  have hnamed : timetable.Named := Timetable.named_ofTrips [crossing]
  have hcurrent := performAll_predictions_current .standard timetable (.kept #[]) hnamed
  have hfirst : ∃ p ∈ (after (overrun.take 1)).board.forVehicle "ferry", p.stop = "island" := by
    decide +kernel
  have hplaced : ((after (overrun.take 1)).vehicles["ferry"]?).map (fun v =>
      (v.placement.map (·.trip), v.placement.bind fun q => v.trip.bind fun t =>
        (t.stopPath? q.index).map (·.stop), v.lastReport.map (·.time))) =
      some (some "crossing", some "pier", some 700000) := by
    decide +kernel
  have hstale : ∃ p ∈ (after overrun).board.forStop "1" "island",
      p.vehicle = "ferry" ∧ p.reportTime = 700000 := by
    decide +kernel
  have hlast : ((after overrun).vehicles["ferry"]?).map (fun v => v.lastReport.map (·.time)) =
      some (some 710000) := by
    decide +kernel
  refine ⟨hnamed, ?_, ?_⟩
  · obtain ⟨p, hp, hstop⟩ := hfirst
    obtain ⟨hvehicle, -, v, q, t, r, hv, hq, ht, hr, hlatest⟩ :=
      (hcurrent (overrun.take 1)).1 "ferry" p hp
    have hfields : (v.placement.map (·.trip), v.placement.bind fun q => v.trip.bind fun t =>
        (t.stopPath? q.index).map (·.stop), v.lastReport.map (·.time)) =
        (some "crossing", some "pier", some 700000) := by
      rw [hv] at hplaced
      exact Option.some.inj hplaced
    rw [hq, ht, hr] at hfields
    simp only [Option.map_some, Option.bind_some, Prod.mk.injEq, Option.some.injEq] at hfields
    obtain ⟨htrip, hon, htime⟩ := hfields
    obtain ⟨hptrip, hptime⟩ := hlatest fun hout => by simp [hout] at hon
    exact ⟨p, hp, hstop, hvehicle, hptrip.trans htrip, hptime.trans htime⟩
  · obtain ⟨p, hp, hvehicle, htime⟩ := hstale
    obtain ⟨v, hv, hr⟩ := Option.map_eq_some_iff.mp hlast
    obtain ⟨r, hr, hrtime⟩ := Option.map_eq_some_iff.mp hr
    have hlisted := ((hcurrent overrun).2.1 "1" "island" p hp).1
    rw [hvehicle] at hlisted
    exact ⟨p, hp, hlisted, htime, v, r, hv, hr, hrtime⟩

end Engine

end NextStop
