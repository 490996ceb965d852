import NextStop.Proofs.Engine.Effect
import NextStop.Proofs.Forecast.Standpoint

/-!
# Reports from the standpoint of a trip

A cycle works on one trip. What it yields is the same from statistics that are the same for the
trip, and its changes of the statistics are for the trip. So is the effect of a report,
`Effect.ofReport_eq`.
-/

namespace NextStop

open Statistics

variable {α : Type} [Scalar α]

/-- An arrival or departure is one of the vehicle, on the trip, at one of its stops. -/
theorem Passage.of_mem_events {vehicle : VehicleId} {trip : Trip α}
    {before : Option (Sighting α)} {now : Sighting α} {radius : α} {offset : Int} {ev : StopEvent}
    (h : ev ∈ events vehicle trip before now radius offset) :
    ev.vehicle = vehicle ∧ ev.trip = trip.id ∧ trip.Serves ev.stop := by
  cases before with
  | none => contradiction
  | some before =>
    rw [events] at h
    split at h
    · obtain ⟨mark, -, hrecord⟩ := List.mem_filterMap.mp h
      obtain ⟨path, hpath, rfl⟩ := Option.map_eq_some_iff.mp hrecord
      exact ⟨rfl, rfl, Trip.serves_of_stopPath? hpath⟩
    · contradiction

namespace Yield

variable {s s' : Statistics α} {now : Int} {v : Vehicle α} {f : Engine.Fix α}

/-- The changes of a cycle are for its trip. -/
theorem changes_on (s : Statistics α) (now : Int) (v : Vehicle α) (f : Engine.Fix α) :
    ∀ c ∈ changes s now v f, c.On f.trip := by
  intro c hc
  rcases List.mem_append.mp hc with hc | hc
  · rw [travels] at hc
    split at hc
    · contradiction
    · exact Forecast.travels_on _ _ _ (fun i hi => ((Forecast.mem_ahead_iff _ _ _).mp hi).2) c hc
  · rcases List.mem_append.mp hc with hc | hc
    · obtain ⟨p, hp, rfl⟩ := List.mem_map.mp hc
      rw [estimates] at hp
      split at hp
      · exact ((forecast_about s now v f).estimates p hp).2
      · contradiction
    · obtain ⟨ev, hev, rfl⟩ := List.mem_map.mp hc
      exact (Passage.of_mem_events (List.mem_of_mem_filter hev)).2

section SameFor

variable {tt : Timetable α} {u : Trip α} (h : SameFor tt now f.trip u s s')
include h

theorem travels_eq : travels s' v f = travels s v f := by
  have hsituation := Forecast.situation_eq_of_settings h.settings_eq (Engine.outset v f)
  simp only [travels, h.settings_eq, hsituation]

theorem headway_eq : headway s' now v f = headway s now v f := by
  rw [headway, headway, h.settings_eq, headway?, headway?, h.settings_eq]
  cases hpath : f.trip.stopPath? ((f.placement.atStop? f.trip s.settings.defaultRadius).getD
      f.placement.index) with
  | none => rfl
  | some path =>
    rw [Option.bind_some, Option.bind_some,
      h.departureAhead?_eq (Trip.serves_of_stopPath? hpath)]

variable (hspares : SparesAll now s (writesOf now s (travels s v f)))
  (hspares' : SparesAll now s' (writesOf now s' (travels s' v f)))
include hspares hspares'

theorem forecast_eq : forecast s' now v f = forecast s now v f := by
  rw [travels_eq h] at hspares'
  rw [forecast, forecast, h.settings_eq]
  split
  · rfl
  · rename_i hfull
    rw [travels, if_neg hfull] at hspares hspares'
    exact Forecast.run_eq (o := Engine.outset v f) h _ hspares hspares'

theorem predictions_eq : predictions s' now v f = predictions s now v f := by
  rw [predictions, predictions, forecast_eq h hspares hspares', h.settings_eq]

theorem estimates_eq : estimates s' now v f = estimates s now v f := by
  rw [estimates, estimates, forecast_eq h hspares hspares', h.settings_eq]

theorem changes_eq : changes s' now v f = changes s now v f := by
  rw [changes, changes, travels_eq h, estimates_eq h hspares hspares', h.settings_eq]

theorem vehicle_eq : vehicle s' now v f = vehicle s now v f := by
  rw [vehicle, vehicle, predictions_eq h hspares hspares', headway_eq h, h.settings_eq]

theorem outcome_eq : outcome s' now v f = outcome s now v f := by
  rw [outcome, outcome, predictions_eq h hspares hspares', headway_eq h, h.settings_eq]

theorem records_eq : records s' now v f = records s now v f := by
  rw [records, records, predictions_eq h hspares hspares', estimates_eq h hspares hspares',
    headway_eq h, h.settings_eq]

end SameFor

end Yield

/-- The trip that a report is placed on, if the timetable has it. -/
def MatchedReport.trip? (tt : Timetable α) (m : MatchedReport α) : Option (Trip α) :=
  m.placement.bind fun p => tt.trip? p.trip

omit [Scalar α] in
theorem MatchedReport.trip?_id {tt : Timetable α} (hnamed : tt.Named) {m : MatchedReport α}
    {t : Trip α} (hm : m.trip? tt = some t) : tt.trip? t.id = some t := by
  obtain ⟨p, -, ht⟩ := Option.bind_eq_some_iff.mp hm
  rw [hnamed p.trip t ht, ht]

namespace Effect

variable {tt : Timetable α} {s s' : Statistics α} {now : Int} {m : MatchedReport α}

/-- The changes of a report are for its trip. -/
theorem changes_on {c : Change α} (x : Standing α) (hc : c ∈ (ofReport tt s x now m).changes) :
    ∃ t, m.trip? tt = some t ∧ c.On t := by
  rcases ofReport_cases tt s x now m with
    ⟨-, heffect⟩ | ⟨-, -, heffect⟩ | ⟨p, -, -, -, heffect⟩ | ⟨p, t, -, -, -, -, heffect⟩ |
      ⟨p, t, -, hp, ht, -, heffect⟩
  · rw [heffect] at hc
    contradiction
  · rw [heffect] at hc
    contradiction
  · rw [heffect] at hc
    contradiction
  · rw [heffect] at hc
    contradiction
  · rw [heffect] at hc
    refine ⟨t, ?_, Yield.changes_on s now _ ⟨m.report, p, t⟩ c hc⟩
    rw [MatchedReport.trip?, hp, Option.bind_some, ht]

theorem changes_of_trip? {t : Trip α} (hm : m.trip? tt = some t) (s : Statistics α)
    (x : Standing α) : ∀ c ∈ (ofReport tt s x now m).changes, c.On t := by
  intro c hc
  obtain ⟨t', ht', hon⟩ := changes_on x hc
  rw [hm, Option.some.injEq] at ht'
  exact ht' ▸ hon

theorem changes_eq_nil (hm : m.trip? tt = none) (s : Statistics α) (x : Standing α) :
    (ofReport tt s x now m).changes = [] := by
  refine List.eq_nil_iff_forall_not_mem.mpr fun c hc => ?_
  obtain ⟨t, ht, -⟩ := changes_on x hc
  rw [hm] at ht
  contradiction

/-- A report that is not placed on a trip of the timetable has the same effect whatever the
statistics are. -/
theorem ofReport_eq_of_trip? (hm : m.trip? tt = none) (s s' : Statistics α) (x : Standing α) :
    ofReport tt s' x now m = ofReport tt s x now m := by
  rcases ofReport_cases tt s x now m with
    ⟨hcoupled, -⟩ | ⟨hlead, hp, -⟩ | ⟨p, hlead, hp, ht, -⟩ | ⟨p, t, -, hp, ht, -, -⟩ |
      ⟨p, t, -, hp, ht, -, -⟩
  · simp [ofReport, hcoupled]
  · simp [ofReport, hlead, hp]
  · simp [ofReport, hlead, hp, ht]
  · rw [MatchedReport.trip?, hp, Option.bind_some, ht] at hm
    contradiction
  · rw [MatchedReport.trip?, hp, Option.bind_some, ht] at hm
    contradiction

/-- A report has the same effect from statistics that are the same for its trip. -/
theorem ofReport_eq {t u : Trip α} (hm : m.trip? tt = some t) (h : SameFor tt now t u s s')
    (x : Standing α)
    (hspares : SparesAll now s (writesOf now s (ofReport tt s x now m).changes))
    (hspares' : SparesAll now s' (writesOf now s' (ofReport tt s' x now m).changes)) :
    ofReport tt s' x now m = ofReport tt s x now m := by
  rcases ofReport_cases tt s x now m with
    ⟨hcoupled, -⟩ | ⟨hlead, hp, -⟩ | ⟨p, hlead, hp, ht, -⟩ | ⟨p, t', hlead, hp, ht, hout, -⟩ |
      ⟨p, t', hlead, hp, ht, hon, -⟩
  · simp [ofReport, hcoupled]
  · simp [ofReport, hlead, hp]
  · simp [ofReport, hlead, hp, ht]
  · simp [ofReport, hlead, hp, ht, ofPlaced, hout]
  · have htrip : t' = t := by
      rw [MatchedReport.trip?, hp, Option.bind_some, ht] at hm
      exact Option.some.inj hm
    subst htrip
    have heffect : ∀ s, ofReport tt s x now m =
        processed s x now ⟨m.report, p, t'⟩ m.scheduleBased := by
      simp [ofReport, hlead, hp, ht, ofPlaced, hon]
    rw [heffect] at hspares hspares' ⊢
    rw [heffect]
    generalize hf : (⟨m.report, p, t'⟩ : Engine.Fix α) = f at *
    have hft : t' = f.trip := hf ▸ rfl
    subst hft
    have hfirst := (SparesAll.append.mp (writesOf_append now s _ _ ▸ hspares)).1
    have hfirst' := (SparesAll.append.mp (writesOf_append now s' _ _ ▸ hspares')).1
    simp only [processed, Yield.outcome_eq h hfirst hfirst', Yield.records_eq h hfirst hfirst',
      Yield.changes_eq h hfirst hfirst', Yield.vehicle_eq h hfirst hfirst',
      Yield.predictions_eq h hfirst hfirst', h.settings_eq]

end Effect

end NextStop
