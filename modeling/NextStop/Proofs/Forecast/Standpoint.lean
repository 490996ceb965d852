import NextStop.Proofs.Forecast.Way
import NextStop.Proofs.Passage.Course
import NextStop.Proofs.Statistics.Standpoint

/-!
# Forecasts from the standpoint of a trip

A forecast asks for the segments ahead on its own trip, and estimates the travel times on them. To
statistics that are the same for the trip it gives the same answer, `Forecast.run_eq`.
-/

namespace NextStop

theorem Trip.serves_stop {α : Type} (t : Trip α) {i : Nat} (hi : i < t.stopPaths.length) :
    t.Serves (Segment.mk t i).stop := by
  have hpath : t.stopPath? i = some t.stopPaths[i] := List.getElem?_eq_getElem hi
  have hstop : (Segment.mk t i).stop = t.stopPaths[i].stop := by
    rw [Segment.stop, Segment.stopPath?, hpath]
    rfl
  rw [hstop]
  exact serves_of_stopPath? hpath

namespace Forecast

open Statistics

variable {α : Type} [Scalar α] {tt : Timetable α} {now : Int} {u : Trip α} {s s' : Statistics α}
  {o : Outset α}

omit [Scalar α] in
theorem travels_on (methods : List Method) (o : Outset α) (c : Situation) {indices : List Nat}
    (hindices : ∀ i ∈ indices, i < o.trip.stopPaths.length) :
    ∀ change ∈ travels methods o c indices, change.On o.trip := by
  intro change hchange
  obtain ⟨i, hi, rfl⟩ := List.mem_map.mp hchange
  exact ⟨rfl, o.trip.serves_stop (hindices i hi)⟩

theorem depart_eq (h : SameFor tt now o.trip u s s') (methods : List Method) {index : Nat}
    (hindex : index < o.trip.stopPaths.length) (arrival : Int) :
    depart s' methods o now index arrival = depart s methods o now index arrival := by
  rw [depart, depart, situation_eq_of_settings h.settings_eq,
    h.dwell_eq rfl (o.trip.serves_stop hindex)]

theorem walk_eq (h : SameFor tt now o.trip u s s') (methods : List Method) {c : Situation}
    (hc : situation s o = c) (first : Nat) (time : Int) (remaining : α)
    (hspares : SparesAll now s (writesOf now s (travels methods o c (ahead o.trip first))))
    (hspares' : SparesAll now s' (writesOf now s' (travels methods o c (ahead o.trip first)))) :
    (walk methods o now (ahead o.trip first) time remaining s').1 =
      (walk methods o now (ahead o.trip first) time remaining s).1 := by
  induction first using ahead_induction (t := o.trip) generalizing time remaining s s' with
  | hend first hle => rfl
  | hstep first hlt ih =>
    have hserves := o.trip.serves_stop hlt
    have hsettings : (Estimate.travel now ⟨o.trip, first⟩ c methods s).2.settings = s.settings :=
      (Estimate.travel_same _ _ _ _ s).settings
    rw [travels, List.map_cons, writesOf, SparesAll.append, ← change_eq_writeAll]
      at hspares hspares'
    obtain ⟨hestimate, -⟩ := h.travel_eq rfl hserves c methods hspares.1 hspares'.1
    have hnext := h.change (c := .travel ⟨o.trip, first⟩ c methods) ⟨rfl, hserves⟩
      hspares.1 hspares'.1
    rw [walk, walk, situation_eq_of_settings h.settings_eq, hc]
    dsimp only
    rw [hestimate]
    split
    · rfl
    · have hdepart := fun arrival => depart_eq hnext methods hlt arrival
      have honward := fun departure => ih hnext
        ((situation_eq_of_settings hsettings o).trans hc) departure 1 hspares.2 hspares'.2
      simp only [change] at hdepart honward
      rw [hdepart, honward]

/-- To statistics that are the same for its trip, a vehicle has the same forecast. -/
theorem run_eq (h : SameFor tt now o.trip u s s') (strategy : Strategy)
    (hspares : SparesAll now s
      (writesOf now s (travels strategy.methods o (situation s o) (way s.settings o))))
    (hspares' : SparesAll now s'
      (writesOf now s' (travels strategy.methods o (situation s o) (way s.settings o)))) :
    (run s' strategy now o).1 = (run s strategy now o).1 := by
  rw [run, run, h.settings_eq]
  cases hstop : o.placement.atStop? o.trip s.settings.defaultRadius with
  | none =>
    rw [way, Placement.ahead, hstop] at hspares hspares'
    exact walk_eq h _ rfl _ _ _ hspares hspares'
  | some stop =>
    rw [way, Placement.ahead, hstop] at hspares hspares'
    dsimp only
    split
    · rfl
    · rw [depart_eq h _ (Placement.atStop?_lt hstop), walk_eq h _ rfl _ _ _ hspares hspares']

end Forecast

end NextStop
