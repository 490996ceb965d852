import NextStop.Proofs.Engine.Effect
import NextStop.Proofs.Engine.Watch

/-!
# The public map

The public sees a vehicle as it was when it was last published: at the end of a cycle, and when it
stops being predictable. A report that could not be placed, of a vehicle that was not predictable
before it, is remembered but not published, `Engine.performAll_take_shown`.

Where vehicles that time out leave the map, a vehicle on the map is watched, so that a sweep can
take it off, unless it was taken off its assignment after the last report that was heard of it,
`Engine.performAll_lingers_iff`.
-/

namespace NextStop

variable {α : Type}

/-! ## What a report shows -/

/-- The vehicle as the public sees it carries its latest report. -/
theorem Vehicle.snapshot?_of_lastReport {v : Vehicle α} {r : Report α} (h : v.lastReport = some r) :
    ∃ shown, v.snapshot? = some shown ∧ shown.vehicle = v.id ∧ shown.time = r.time ∧
      shown.lat = r.lat ∧ shown.lon = r.lon ∧ shown.predictable = v.predictable := by
  rw [snapshot?, h]
  exact ⟨_, rfl, rfl, rfl, rfl, rfl, rfl⟩

/-- Publishing a vehicle that has reported replaces what the public saw of it. -/
theorem Standing.shown_publish (x : Standing α) {v : Vehicle α} {r : Report α}
    (h : v.lastReport = some r) : (x.publish v).shown = v.snapshot? := by
  obtain ⟨shown, hshown, -⟩ := v.snapshot?_of_lastReport h
  rw [publish, hshown, Option.some_or]

variable [Scalar α]

/-- What a report that is not rejected makes of the vehicle, and whether the public sees it. -/
theorem Effect.shown_ofReport (tt : Timetable α) (s : Statistics α) (x : Standing α) (now : Int)
    {m : MatchedReport α} (hlead : m.report.inConsist = false) {outcome : Outcome}
    (hok : (ofReport tt s x now m).result = .ok outcome) :
    ∃ v : Vehicle α, (ofReport tt s x now m).standing.known = some v ∧
      v.id = (x.vehicle m.report.vehicle).id ∧ v.lastReport = some m.report ∧
      v.predictable = m.placement.isSome ∧
      (ofReport tt s x now m).standing.shown =
        if m.placement.isSome || (x.vehicle m.report.vehicle).predictable then v.snapshot?
        else x.shown := by
  rcases ofReport_cases tt s x now m with
    ⟨hcoupled, -⟩ | ⟨-, hp, heffect⟩ | ⟨p, -, -, -, heffect⟩ | ⟨p, t, -, -, -, -, heffect⟩ |
      ⟨p, t, -, hp, -, -, heffect⟩
  · rw [hlead] at hcoupled
    contradiction
  · rw [heffect, hp]
    rcases standing_ofUnplaced x m.report with ⟨hidle, hunplaced⟩ | ⟨hpredictable, hunplaced⟩
    · rw [hunplaced, hidle]
      exact ⟨_, rfl, rfl, rfl, hidle, rfl⟩
    · have hreport : (Vehicle.demote { x.vehicle m.report.vehicle with
          lastReport := some m.report } .noMatch "No match for AVL report"
            m.report.time).1.lastReport = some m.report := rfl
      rw [hunplaced, hpredictable]
      exact ⟨_, rfl, rfl, hreport, rfl, Standing.shown_publish { x with listed := [] } hreport⟩
  · rw [heffect] at hok
    contradiction
  · rw [heffect] at hok
    contradiction
  · obtain ⟨event, hplaced⟩ := placed_eq x ⟨m.report, p, t⟩ m.scheduleBased
    generalize hv : (placed x ⟨m.report, p, t⟩ m.scheduleBased).1 = v at hplaced
    have hreport : (Yield.vehicle s now v ⟨m.report, p, t⟩).lastReport = some m.report := by
      rw [Yield.vehicle, hplaced]
    rw [heffect, hp, processed, hv]
    refine ⟨Yield.vehicle s now v ⟨m.report, p, t⟩, rfl, ?_, hreport, ?_,
      Standing.shown_publish _ hreport⟩
    · rw [Yield.vehicle, hplaced]
    · rw [Yield.vehicle, hplaced]
      rfl

namespace Engine

/-- After any run of calls, a report that leads its consist and is not rejected becomes the latest
one of its vehicle. If it was placed, or the vehicle was predictable before it, the public sees the
vehicle as it is now; otherwise the public sees what it saw before. -/
theorem performAll_take_shown (settings : Settings α) (timetable : Timetable α)
    (journal : Journal α) (calls : List (Int × Call α)) (now : Int) (m : MatchedReport α)
    (hlead : m.report.inConsist = false) :
    let e := (start settings timetable journal).performAll calls
    let taken := e.take now m
    let id := m.report.vehicle
    (∃ outcome, taken.1 = .ok outcome) →
      (∃ v : Vehicle α, taken.2.vehicles[id]? = some v ∧ v.lastReport = some m.report ∧
        v.predictable = m.placement.isSome ∧
        (m.placement.isSome = true ∨ (e.vehicle id).predictable = true →
          taken.2.live[id]? = v.snapshot? ∧
          ∃ shown : Snapshot α, taken.2.live[id]? = some shown ∧ shown.vehicle = id ∧
            shown.time = m.report.time ∧ shown.lat = m.report.lat ∧ shown.lon = m.report.lon ∧
            shown.predictable = v.predictable) ∧
        (m.placement = none → (e.vehicle id).predictable = false →
          taken.2.live[id]? = e.live[id]?)) ∧
      ∀ other : VehicleId, id ≠ other → taken.2.live[other]? = e.live[other]? := by
  rintro e taken id ⟨outcome, hok⟩
  have hfiled : e.Filed := (Filed.start settings timetable journal).performAll calls
  obtain ⟨hresult, hundergoes⟩ := e.take_effect hfiled now m
  have hstanding : taken.2.standing id = (e.effect now m).standing := hundergoes.standing_eq
  obtain ⟨v, hknown, hid, hreport, hpredictable, hshown⟩ :=
    Effect.shown_ofReport e.timetable e.statistics (e.standing id) now hlead (hresult.symm.trans hok)
  have hlive : taken.2.live[id]? = _ := (congrArg Standing.shown hstanding).trans hshown
  refine ⟨⟨v, (congrArg Standing.known hstanding).trans hknown, hreport, hpredictable, ?_, ?_⟩,
    fun other hne => congrArg Standing.shown (hundergoes.others other hne)⟩
  · intro hseen
    obtain ⟨shown, hsnapshot, hvehicle, hrest⟩ := v.snapshot?_of_lastReport hreport
    have hnow : taken.2.live[id]? = v.snapshot? :=
      hlive.trans (if_pos (Bool.or_eq_true_iff.mpr hseen))
    exact ⟨hnow, shown, hnow.trans hsnapshot, hvehicle.trans (hid.trans (hfiled.vehicle_id id)), hrest⟩
  · intro hp hidle
    have hnew : (m.placement.isSome || (e.vehicle id).predictable) = false := by
      rw [hp, hidle]
      rfl
    exact hlive.trans (if_neg (Bool.eq_false_iff.mp hnew))

/-- The bus and the tram of `busAndTram` report once more and cannot be placed. The bus was
predictable, and the public sees its last position; of the tram it has seen nothing yet, and still
does not. -/
theorem performAll_take_shown_busAndTram :
    let e := (start .standard (.ofTrips [twoStops]) (.kept #[])).performAll busAndTram
    let lost (vehicle : VehicleId) : MatchedReport Rat :=
      ⟨⟨vehicle, 30000, 42, 71, false⟩, none, false⟩
    (∃ shown, (e.take 30000 (lost "bus")).2.live["bus"]? = some shown ∧ shown.time = 30000 ∧
        shown.lat = 42 ∧ shown.lon = 71 ∧ shown.predictable = false) ∧
      (∃ v, (e.take 30000 (lost "tram")).2.vehicles["tram"]? = some v ∧
        v.lastReport.map (·.time) = some 30000) ∧
      (e.take 30000 (lost "tram")).2.live["tram"]? = none := by
  intro e lost
  have hshown := fun vehicle => performAll_take_shown .standard (.ofTrips [twoStops]) (.kept #[])
    busAndTram 30000 (lost vehicle) rfl
  have hbus : (e.vehicle "bus").predictable = true := by decide +kernel
  have htram : (e.vehicle "tram").predictable = false := by decide +kernel
  have hunseen : e.live["tram"]? = none := by decide +kernel
  obtain ⟨⟨v, -, -, hidle, hseen, -⟩, -⟩ := hshown "bus" ⟨_, rfl⟩
  obtain ⟨⟨w, hw, hreport, -, -, hkept⟩, -⟩ := hshown "tram" ⟨_, rfl⟩
  obtain ⟨-, shown, hlive, -, htime, hlat, hlon, hpredictable⟩ := hseen (Or.inr hbus)
  refine ⟨⟨shown, hlive, htime, hlat, hlon, hpredictable.trans hidle⟩, ⟨w, hw, ?_⟩, ?_⟩
  · rw [hreport]
    rfl
  · exact (hkept rfl htram).trans hunseen

end Engine

/-! ## What stays on the map -/

namespace Standing

/-- The public sees the vehicle, but no sweep will come by it. -/
def Lingers (x : Standing α) : Prop := x.shown ≠ none ∧ x.heard = none

/-- What is shown or watched is known, and what is known has reported. -/
structure Grounded (x : Standing α) : Prop where
  shown : x.known = none → x.shown = none
  heard : x.known = none → x.heard = none
  reported : ∀ v : Vehicle α, x.known = some v → v.lastReport ≠ none

end Standing

/-- Whether a call is a report that is heard of a vehicle: it leads its consist, and was not placed
on a trip that the timetable does not have. -/
def Engine.Call.hears (tt : Timetable α) (id : VehicleId) : Call α → Bool
  | .report m =>
    m.report.vehicle == id && !m.report.inConsist &&
      m.placement.all fun p => (tt.trip? p.trip).isSome
  | _ => false

/-- A vehicle was taken off its assignment after the last report that was heard of it. -/
def Engine.WithdrawnLast (tt : Timetable α) (id : VehicleId) (calls : List (Int × Call α)) : Prop :=
  ∃ (before : List (Int × Call α)) (now : Int) (after : List (Int × Call α)),
    calls = before ++ (now, .unassign id) :: after ∧
      (∃ call ∈ before, call.2.hears tt id = true) ∧ ∀ call ∈ after, call.2.hears tt id = false

namespace Standing

/-- A report that is heard is heard: the vehicle is known, has reported and is watched. -/
theorem perform_of_hears {tt : Timetable α} {s : Statistics α} {id : VehicleId} (x : Standing α)
    {call : Int × Engine.Call α} (h : call.2.hears tt id = true) :
    (∃ (v : Vehicle α) (r : Report α), (x.perform tt s id call).known = some v ∧
      v.lastReport = some r) ∧ (x.perform tt s id call).heard ≠ none := by
  obtain ⟨now, call⟩ := call
  cases call with
  | report m =>
    simp only [Engine.Call.hears, Bool.and_eq_true, beq_iff_eq, Bool.not_eq_true'] at h
    obtain ⟨⟨hm, hlead⟩, hknown⟩ := h
    rw [perform, if_pos hm]
    rcases Effect.ofReport_cases tt s x now m with
      ⟨hcoupled, -⟩ | ⟨-, -, heffect⟩ | ⟨p, -, hp, ht, -⟩ | ⟨p, t, -, -, -, -, heffect⟩ |
        ⟨p, t, -, -, -, -, heffect⟩
    · rw [hlead] at hcoupled
      contradiction
    · rw [heffect]
      rcases Effect.standing_ofUnplaced x m.report with ⟨-, hunplaced⟩ | ⟨-, hunplaced⟩
      · rw [hunplaced]
        exact ⟨⟨_, m.report, rfl, rfl⟩, Option.some_ne_none _⟩
      · rw [hunplaced]
        exact ⟨⟨_, m.report, rfl, rfl⟩, Option.some_ne_none _⟩
    · rw [hp, Option.all_some, ht] at hknown
      contradiction
    · obtain ⟨event, hplaced⟩ := Effect.placed_eq x ⟨m.report, p, t⟩ m.scheduleBased
      rw [heffect]
      exact ⟨⟨_, m.report, rfl, by rw [hplaced]⟩, Option.some_ne_none _⟩
    · obtain ⟨event, hplaced⟩ := Effect.placed_eq x ⟨m.report, p, t⟩ m.scheduleBased
      rw [heffect]
      exact ⟨⟨Yield.vehicle s now (Effect.placed x ⟨m.report, p, t⟩ m.scheduleBased).1
        ⟨m.report, p, t⟩, m.report, rfl, by rw [Yield.vehicle, hplaced]⟩, Option.some_ne_none _⟩
  | unassign other => contradiction
  | warmUp history => contradiction
  | sweep => contradiction

/-- Any other call leaves the standing alone, unless it unassigns the vehicle or sweeps. -/
theorem perform_of_not_hears {tt : Timetable α} {s : Statistics α} {id : VehicleId}
    (x : Standing α) {call : Int × Engine.Call α} (h : call.2.hears tt id = false) :
    (call.2 = .unassign id → x.known = none) ∧ x.perform tt s id call = x ∨
      (∃ v, call.2 = .unassign id ∧ x.known = some v ∧
        x.perform tt s id call = (x.demote (v.unassign call.1).1).unwatch) ∨
      (call.2 = .sweep ∧ x.perform tt s id call = x.sweep s.settings call.1) := by
  obtain ⟨now, call⟩ := call
  cases call with
  | report m =>
    refine Or.inl ⟨by simp, ?_⟩
    rw [perform]
    split
    · rename_i hm
      rcases Effect.ofReport_cases tt s x now m with
        ⟨-, heffect⟩ | ⟨hlead, hp, heffect⟩ | ⟨p, -, -, -, heffect⟩ |
          ⟨p, t, hlead, hp, ht, -, heffect⟩ | ⟨p, t, hlead, hp, ht, -, heffect⟩
      · rw [heffect]
      · simp [Engine.Call.hears, hm, hlead, hp] at h
      · rw [heffect]
      · simp [Engine.Call.hears, hm, hlead, hp, ht] at h
      · simp [Engine.Call.hears, hm, hlead, hp, ht] at h
    · rfl
  | unassign other =>
    rw [perform]
    split
    · rename_i hother
      subst hother
      cases hknown : x.known with
      | none => exact Or.inl ⟨fun _ => rfl, rfl⟩
      | some v => exact Or.inr (Or.inl ⟨v, rfl, rfl, rfl⟩)
    · rename_i hother
      exact Or.inl ⟨fun hcall => absurd (Engine.Call.unassign.inj hcall) hother, rfl⟩
  | warmUp history => exact Or.inl ⟨by simp, rfl⟩
  | sweep => exact Or.inr (Or.inr ⟨rfl, rfl⟩)

/-- A sweep takes note of known vehicles only. -/
theorem Grounded.sweep_of_unknown {x : Standing α} (h : x.Grounded) (hx : x.known = none)
    (s : Settings α) (now : Int) : x.sweep s now = x := by
  simp [Standing.sweep, verdict?, h.heard hx]

theorem Grounded.sweep {x : Standing α} (h : x.Grounded) (s : Settings α) (now : Int) :
    (x.sweep s now).Grounded ∧ ((x.sweep s now).known = none ↔ x.known = none) := by
  cases hx : x.known with
  | none =>
    rw [h.sweep_of_unknown hx]
    exact ⟨h, by simp [hx]⟩
  | some v =>
    rcases known_sweep s now x with ⟨-, hsame⟩ | ⟨u, cause, -, hu, -, hdemoted⟩
    · rw [hsame, hx]
      refine ⟨⟨?_, ?_, ?_⟩, by simp⟩
      · rw [hsame, hx]
        intro hnone
        contradiction
      · rw [hsame, hx]
        intro hnone
        contradiction
      · rw [hsame]
        exact h.reported
    · rw [hdemoted]
      refine ⟨⟨?_, ?_, ?_⟩, by simp⟩
      · rw [hdemoted]
        intro hnone
        contradiction
      · rw [hdemoted]
        intro hnone
        contradiction
      · intro w hw
        rw [hdemoted] at hw
        obtain rfl := Option.some.inj hw
        exact h.reported u hu

end Standing

/-- Where vehicles that time out leave the map, none is forgotten that is still on it. -/
theorem Engine.verdict_ne_forget {s : Settings α} (hdrop : s.dropTimedOut = true) (v : Vehicle α)
    (last now : Int) : Engine.verdict s v last now ≠ .forget := by
  cases hpredictable : v.predictable with
  | true =>
    rcases verdict_of_predictable s hpredictable last now with hkeep | ⟨cause, htimeOut⟩
    · simp [hkeep]
    · simp [htimeOut]
  | false =>
    rw [verdict, hpredictable, verdictIdle, hdrop]
    simp only [Bool.not_false, Bool.not_true, Bool.false_eq_true, if_true, if_false]
    split <;> simp

namespace Standing

/-- Where vehicles that time out leave the map, a sweep stops watching none that stays on it. -/
theorem Grounded.lingers_sweep {x : Standing α} (h : x.Grounded) {s : Settings α}
    (hdrop : s.dropTimedOut = true) (now : Int) : (x.sweep s now).Lingers ↔ x.Lingers := by
  cases hheard : x.heard with
  | none => simp [Standing.sweep, verdict?, hheard]
  | some watched =>
    have hbefore : ¬x.Lingers := fun hl => by
      rw [hl.2] at hheard
      contradiction
    cases hx : x.known with
    | none =>
      rw [h.heard hx] at hheard
      contradiction
    | some v =>
      have hverdict := verdict?_of_heard hheard hx s now
      simp only [hbefore, iff_false]
      cases hdecided : Engine.verdict s v (Engine.lastHeard v watched) now with
      | keep => simp [Standing.sweep, hverdict, hdecided, catchUp, Lingers, hheard]
      | forget => exact absurd hdecided (Engine.verdict_ne_forget hdrop v _ now)
      | evict => simp [Standing.sweep, hverdict, hdecided, unpublish, Lingers]
      | timeOut cause =>
        simp [Standing.sweep, hverdict, hdecided, hx, timeOut, hdrop, unpublish, Lingers]

end Standing

namespace Engine

omit [Scalar α] in
/-- What one more call does to the question whether the vehicle was withdrawn last. -/
theorem withdrawnLast_concat (tt : Timetable α) (id : VehicleId) (calls : List (Int × Call α))
    (call : Int × Call α) :
    WithdrawnLast tt id (calls ++ [call]) ↔
      call.2.hears tt id = false ∧ WithdrawnLast tt id calls ∨
        call.2 = .unassign id ∧ ∃ c ∈ calls, c.2.hears tt id = true := by
  constructor
  · rintro ⟨before, now, after, hcalls, hheard, hsilent⟩
    rcases List.eq_nil_or_concat after with rfl | ⟨rest, last, rfl⟩
    · obtain ⟨rfl, hcall⟩ := List.append_inj' hcalls rfl
      obtain rfl := (List.cons.inj hcall).1
      exact Or.inr ⟨rfl, hheard⟩
    · rw [List.concat_eq_append, ← List.cons_append, ← List.append_assoc] at hcalls
      obtain ⟨rfl, hcall⟩ := List.append_inj' hcalls rfl
      obtain rfl := (List.cons.inj hcall).1
      rw [List.concat_eq_append] at hsilent
      exact Or.inl ⟨hsilent _ (by simp), before, now, rest, rfl, hheard,
        fun c hc => hsilent c (List.mem_append_left _ hc)⟩
  · rintro (⟨hcall, before, now, after, rfl, hheard, hsilent⟩ | ⟨hcall, hheard⟩)
    · refine ⟨before, now, after ++ [call], by simp, hheard, ?_⟩
      intro c hc
      rcases List.mem_append.mp hc with hc | hc
      · exact hsilent c hc
      · rw [List.mem_singleton.mp hc]
        exact hcall
    · refine ⟨calls, call.1, [], ?_, hheard, by simp⟩
      rw [← hcall]

/-- What is known of a vehicle after a run of calls goes by the reports that were heard of it, and
whether it lingers on the map goes by the last of these. -/
theorem performAll_grounded {settings : Settings α} (hdrop : settings.dropTimedOut = true)
    (timetable : Timetable α) (journal : Journal α) (calls : List (Int × Call α))
    (id : VehicleId) :
    let x := ((start settings timetable journal).performAll calls).standing id
    x.Grounded ∧ (x.known ≠ none ↔ ∃ call ∈ calls, call.2.hears timetable id = true) ∧
      (x.Lingers ↔ WithdrawnLast timetable id calls) := by
  induction calls using List.reverseRecOn with
  | nil =>
    intro x
    have hx : x = ⟨none, none, none, []⟩ := standing_start settings timetable journal id
    rw [hx]
    refine ⟨⟨by simp, by simp, by simp⟩, by simp, ?_⟩
    simp [Standing.Lingers, WithdrawnLast]
  | append_singleton calls call ih =>
    have hfiled := (Filed.start settings timetable journal).performAll calls
    have hsettings : Engine.settings _ = settings :=
      settings_performAll (Filed.start settings timetable journal) calls
    have htimetable := (start settings timetable journal).timetable_performAll calls
    rw [performAll_append]
    generalize (start settings timetable journal).performAll calls = e at *
    obtain ⟨hgrounded, hknown, hlingers⟩ := ih
    have hone : (e.performAll [call]).standing id =
        (e.standing id).perform timetable e.statistics id call := by
      refine (standing_perform hfiled call id).trans ?_
      rw [htimetable]
      rfl
    have hany : (∃ c ∈ calls ++ [call], c.2.hears timetable id = true) ↔
        (∃ c ∈ calls, c.2.hears timetable id = true) ∨ call.2.hears timetable id = true := by
      simp only [List.mem_append, List.mem_singleton, or_and_right, exists_or, exists_eq_left]
    rw [hone, withdrawnLast_concat, hany]
    cases hheard : call.2.hears timetable id with
    | true =>
      -- a report that was heard: the vehicle is watched
      obtain ⟨⟨v, r, hv, hr⟩, hwatched⟩ :=
        (e.standing id).perform_of_hears (s := e.statistics) hheard
      have hnot : call.2 ≠ .unassign id := by
        rintro hcall
        rw [hcall] at hheard
        contradiction
      refine ⟨⟨?_, ?_, ?_⟩, by simp [hv], ?_⟩
      · simp [hv]
      · simp [hv]
      · intro w hw
        obtain rfl := Option.some.inj (hv.symm.trans hw)
        simp [hr]
      · simp [Standing.Lingers, hwatched, hnot]
    | false =>
      rcases (e.standing id).perform_of_not_hears (s := e.statistics) hheard with
        ⟨hunknown, hsame⟩ | ⟨v, hcall, hv, hunassigned⟩ | ⟨hcall, hswept⟩
      · have hnever : ¬(call.2 = .unassign id ∧ ∃ c ∈ calls, c.2.hears timetable id = true) :=
          fun h => hknown.mpr h.2 (hunknown h.1)
        rw [hsame]
        exact ⟨hgrounded, by rw [hknown]; simp, by rw [hlingers]; simp only [hnever]; simp⟩
      · -- the vehicle is shown as it was when it was taken off, and no longer watched
        have hsome : ∃ c ∈ calls, c.2.hears timetable id = true := hknown.mp (by simp [hv])
        obtain ⟨r, hr⟩ := Option.ne_none_iff_exists'.mp (hgrounded.reported v hv)
        have hreport : (v.unassign call.1).1.lastReport = some r := hr
        obtain ⟨shown, hshown, -⟩ := Vehicle.snapshot?_of_lastReport hreport
        have hkept : (((e.standing id).demote (v.unassign call.1).1).unwatch).known ≠ none :=
          Option.some_ne_none _
        rw [hunassigned]
        refine ⟨⟨?_, ?_, ?_⟩, ?_, ?_⟩
        · exact fun hnone => absurd hnone hkept
        · exact fun hnone => absurd hnone hkept
        · intro w hw
          obtain rfl := Option.some.inj hw
          simp [hreport]
        · exact iff_of_true hkept (Or.inl hsome)
        · refine iff_of_true ⟨?_, rfl⟩ (Or.inr ⟨hcall, hsome⟩)
          simp [Standing.unwatch, Standing.demote, Standing.keep, Standing.publish, hshown]
      · obtain ⟨hstill, hsame⟩ := hgrounded.sweep settings call.1
        have hnot : call.2 ≠ .unassign id := by simp [hcall]
        have hlingering := hgrounded.lingers_sweep hdrop call.1
        rw [hswept, show e.statistics.settings = settings from hsettings]
        refine ⟨hstill, ?_, ?_⟩
        · rw [Ne, hsame, ← Ne, hknown]
          simp
        · rw [hlingering, hlingers]
          simp [hnot]

/-- Where vehicles that time out leave the map, the vehicles that are on it and not watched are
those that were taken off their assignment after the last report that was heard of them, and no
sweep takes one of these off. A watched vehicle leaves the map when a sweep stops watching it, as a
sweep does with every vehicle that is not predictable and has been silent for too long. -/
theorem performAll_lingers_iff (settings : Settings α) (hdrop : settings.dropTimedOut = true)
    (timetable : Timetable α) (journal : Journal α) (calls : List (Int × Call α)) :
    let e := (start settings timetable journal).performAll calls
    (∀ id : VehicleId,
      id ∈ e.live ∧ id ∉ e.watch ↔ WithdrawnLast timetable id calls) ∧
    ∀ (id : VehicleId) (now : Int),
      (id ∈ e.live → id ∉ e.watch → id ∈ (e.sweep now).2.live ∧ id ∉ (e.sweep now).2.watch) ∧
      (id ∈ e.watch → id ∉ (e.sweep now).2.watch → id ∉ (e.sweep now).2.live) ∧
      ∀ last : Int, e.watch[id]? = some last → ∃ v : Vehicle α, e.vehicles[id]? = some v ∧
        (v.predictable = false → isSilent settings (lastHeard v last) now = true →
          id ∉ (e.sweep now).2.watch) := by
  intro e
  have hfiled : e.Filed := (Filed.start settings timetable journal).performAll calls
  have hsettings : e.settings = settings :=
    settings_performAll (Filed.start settings timetable journal) calls
  have hgrounded := fun id => performAll_grounded hdrop timetable journal calls id
  have hlingers : ∀ (f : Engine α) (id : VehicleId),
      (f.standing id).Lingers ↔ id ∈ f.live ∧ id ∉ f.watch := by
    intro f id
    rw [Std.TreeMap.mem_iff_isSome_getElem?, Std.TreeMap.mem_iff_isSome_getElem?,
      Option.isSome_iff_ne_none, Option.isSome_iff_ne_none, not_not]
    rfl
  have hswept : ∀ (id : VehicleId) (now : Int), ((e.sweep now).2.standing id).Lingers ↔
      (e.standing id).Lingers := by
    intro id now
    rw [standing_sweep hfiled, hsettings]
    exact (hgrounded id).1.lingers_sweep hdrop now
  refine ⟨fun id => (hlingers e id).symm.trans (hgrounded id).2.2, fun id now => ⟨?_, ?_, ?_⟩⟩
  · intro hlive hwatch
    exact (hlingers _ id).mp ((hswept id now).mpr ((hlingers e id).mpr ⟨hlive, hwatch⟩))
  · intro hwatch hunwatched hlive
    have hstays := (hswept id now).mp ((hlingers _ id).mpr ⟨hlive, hunwatched⟩)
    exact ((hlingers e id).mp hstays).2 hwatch
  · intro last hlast
    have hheard : (e.standing id).heard = some last := hlast
    cases hv : (e.standing id).known with
    | none =>
      rw [(hgrounded id).1.heard hv] at hheard
      contradiction
    | some v =>
      refine ⟨v, hv, fun hidle hsilent => ?_⟩
      have hverdict := Standing.verdict?_of_heard hheard hv settings now
      have hevict : verdict settings v (lastHeard v last) now = .evict := by
        rw [verdict, hidle, verdictIdle, hdrop, hsilent]
        rfl
      have hunwatched : ((e.sweep now).2.standing id).heard = none := by
        rw [standing_sweep hfiled, hsettings, Standing.sweep, hverdict, hevict]
        rfl
      exact fun hmem => Option.isSome_iff_ne_none.mp
        (Std.TreeMap.mem_iff_isSome_getElem?.mp hmem) hunwatched

/-- Settings with which vehicles that time out leave the map. -/
def clearing : Settings Rat := { Settings.standard with dropTimedOut := true }

/-- A bus and a coach are placed at the harbour. Then the bus is taken off its assignment, and a
report of the coach cannot be placed. -/
def busAndCoach : List (Int × Call Rat) :=
  let reported (vehicle : VehicleId) (time : Int) : Report Rat := ⟨vehicle, time, 0, 0, false⟩
  [(0, .report ⟨reported "bus" 0, some ⟨"line", "block", 0, 0, 250, 500⟩, false⟩),
    (0, .report ⟨reported "coach" 0, some ⟨"line", "block", 0, 0, 250, 500⟩, false⟩),
    (10000, .unassign "bus"),
    (10000, .report ⟨reported "coach" 10000, none, false⟩)]

/-- Both are on the map and neither is predictable. A sweep half an hour later takes the coach off
the map, and leaves the bus on it. -/
theorem performAll_lingers_iff_busAndCoach :
    let e := (start clearing (.ofTrips [twoStops]) (.kept #[])).performAll busAndCoach
    clearing.dropTimedOut = true ∧ WithdrawnLast (.ofTrips [twoStops]) "bus" busAndCoach ∧
      ("bus" ∈ e.live ∧ "bus" ∉ e.watch) ∧ "bus" ∈ (e.sweep 1800000).2.live ∧
      ("coach" ∈ e.live ∧ "coach" ∈ e.watch) ∧ "coach" ∉ (e.sweep 1800000).2.live := by
  intro e
  have hdrop : clearing.dropTimedOut = true := rfl
  obtain ⟨hwithdrawn, hsweep⟩ :=
    performAll_lingers_iff clearing hdrop (.ofTrips [twoStops]) (.kept #[]) busAndCoach
  have hbus : "bus" ∈ e.live ∧ "bus" ∉ e.watch := by decide +kernel
  have hcoach : "coach" ∈ e.live ∧ "coach" ∈ e.watch := by decide +kernel
  have hlast : e.watch["coach"]? = some 10000 := by decide +kernel
  have hidle : (e.vehicles["coach"]?).map (fun v =>
      v.predictable || !isSilent clearing (lastHeard v 10000) 1800000) = some false := by
    decide +kernel
  obtain ⟨hstays, -, -⟩ := hsweep "bus" 1800000
  obtain ⟨-, hleaves, hsilent⟩ := hsweep "coach" 1800000
  obtain ⟨v, hv, hforgotten⟩ := hsilent 10000 hlast
  rw [hv, Option.map_some, Option.some.injEq, Bool.or_eq_false_iff, Bool.not_eq_false'] at hidle
  exact ⟨hdrop, (hwithdrawn "bus").mp hbus, hbus, (hstays hbus.1 hbus.2).1, hcoach,
    hleaves hcoach.2 (hforgotten hidle.1 hidle.2)⟩

end Engine

end NextStop
