import NextStop.Engine.Cycle
import NextStop.Proofs.Forecast.Itinerary
import NextStop.Proofs.Scalar
import NextStop.Proofs.Statistics.Samples

/-!
# Timeliness of a forecast

In exact arithmetic no estimate is negative: samples are not, hence neither are their means, and
where a filter or a dwell model may fall below zero its answer is cut off. So a forecast holds at
wait stops until their scheduled time. It goes forward in time from the report on, and what lies
within the horizon comes first in it, as long as its times do not leave the 64-bit range:
`Forecast.changeEach_timely`. That is so if the estimates together fit into what is left of the
range after the report and after each scheduled time that the vehicle may wait for,
`Forecast.HasRoom`.
-/

namespace NextStop

theorem Placement.fraction_nonneg (p : Placement Rat) : 0 ≤ p.fraction := by
  rw [fraction]
  split
  · exact zero_le_one
  · exact Scalar.clamp_nonneg _

theorem Placement.fraction_le_one (p : Placement Rat) : p.fraction ≤ 1 := by
  rw [fraction]
  split
  · exact le_refl 1
  · exact Scalar.clamp_le_one _

/-! ## Estimates are not negative -/

namespace Statistics

variable {α : Type} {s : Statistics α} {now : Int} {seg : Segment α} {o : Observer}

theorem nonneg_of_lastVehicleTravel? {travel : Int}
    (h : s.lastVehicleTravel? now seg o = some travel) : 0 ≤ travel := by
  simp only [lastVehicleTravel?, Option.bind_eq_some_iff] at h
  obtain ⟨arrival, -, log, -, departure, -, h⟩ := h
  split at h
  · rename_i hplausible
    rw [← Option.some.inj h]
    exact s.settings.nonneg_of_travelPlausible hplausible
  · contradiction

theorem nonneg_of_lastVehicleDwell? {dwell : Int}
    (h : s.lastVehicleDwell? now seg o = some dwell) : 0 ≤ dwell := by
  simp only [lastVehicleDwell?, Option.bind_eq_some_iff] at h
  obtain ⟨departure, -, log, -, arrival, -, h⟩ := h
  split at h
  · rename_i hplausible
    rw [← Option.some.inj h]
    exact s.settings.nonneg_of_dwellPlausible hplausible
  · contradiction

end Statistics

namespace Estimate

variable {s : Statistics Rat}

theorem nonneg_of_trustedMean? (h : s.AllMeans fun m => 0 ≤ m.mean) {now : Int} {seg : Segment Rat}
    {q : Quantity} {time : Int} {mean : Rat} (hmean : trustedMean? s now seg q time = some mean) :
    0 ≤ mean := by
  obtain ⟨m, hm, -, -, rfl⟩ := trustedMean?_eq_some_iff.mp hmean
  exact h.of_segmentMean? hm

theorem travel_nonneg (h : s.AllMeans fun m => 0 ≤ m.mean) (now : Int) (seg : Segment Rat)
    (c : Situation) (methods : List Method) : 0 ≤ (travel now seg c methods s).1.value := by
  induction methods generalizing s with
  | nil => exact Int.le_max_right _ _
  | cons m rest ih =>
    cases m with
    | timetable => exact Int.le_max_right _ _
    | lastVehicle =>
      rw [travel]
      cases hlast : s.lastVehicleTravel? now seg c.observer with
      | none => exact ih h
      | some value => exact Statistics.nonneg_of_lastVehicleTravel? hlast
    | historicalAverage =>
      rw [travel]
      cases hmean : trustedMean? s now seg .travel c.observer.time with
      | none => exact ih h
      | some mean => exact Scalar.round_nonneg (nonneg_of_trustedMean? h hmean)
    | kalman =>
      rw [travel]
      cases s.kalmanError? now seg with
      | none => exact ih (h.putKalmanError now seg _)
      | some error =>
        dsimp only
        split
        · exact Int.le_max_right _ _
        · exact ih h
    | rls => exact ih h

theorem dwell_nonneg (h : s.AllMeans fun m => 0 ≤ m.mean) (now : Int) (seg : Segment Rat)
    (c : Situation) (methods : List Method) : 0 ≤ (dwell now seg c s methods).value := by
  induction methods with
  | nil => exact Int.le_max_right _ _
  | cons m rest ih =>
    cases m with
    | timetable => exact Int.le_max_right _ _
    | lastVehicle =>
      rw [dwell]
      cases hlast : s.lastVehicleDwell? now seg c.observer with
      | none => exact ih
      | some value => exact Statistics.nonneg_of_lastVehicleDwell? hlast
    | historicalAverage =>
      rw [dwell]
      cases hmean : trustedMean? s now seg .dwell c.observer.time with
      | none => exact ih
      | some mean => exact Scalar.round_nonneg (nonneg_of_trustedMean? h hmean)
    | kalman => exact ih
    | rls =>
      rw [dwell]
      split
      · exact ih
      · split
        · exact Int.le_max_right _ _
        · exact ih

end Estimate

/-! ## The order of time -/

/-- If whatever comes later in a list fails a test once something has failed it, what passes the
test comes first. -/
theorem filter_append_filter_not {β : Type} {test : β → Bool} {l : List β}
    (h : l.Pairwise fun a b => test b = true → test a = true) :
    l.filter test ++ l.filter (fun a => !test a) = l := by
  induction l with
  | nil => rfl
  | cons a rest ih =>
    obtain ⟨hfirst, hrest⟩ := List.pairwise_cons.mp h
    cases ha : test a with
    | true =>
      rw [List.filter_cons_of_pos ha, List.filter_cons_of_neg (by simp [ha]), List.cons_append,
        ih hrest]
    | false =>
      have hnone : ∀ b ∈ rest, test b = false := by
        intro b hb
        cases hbtest : test b with
        | false => rfl
        | true => exact absurd (hfirst b hb hbtest) (by simp [ha])
      rw [List.filter_cons_of_neg (by simp [ha]), List.filter_eq_nil_iff.mpr (by simpa using hnone),
        List.nil_append, List.filter_eq_self]
      simpa [ha] using hnone

/-- Of a new forecast, an engine keeps what is within its horizon. -/
theorem Engine.predictions_predict {α : Type} [Scalar α] (e : Engine α) (now : Int) (v : Vehicle α)
    (f : Fix α) :
    (e.predict now v f).1.predictions =
      (Forecast.run e.statistics e.settings.strategy now (outset v f)).1.predictions.filter
        (withinSeconds f.report.time e.settings.predictionHorizon) := by
  have hsettings : (Forecast.run e.statistics e.settings.strategy now (outset v f)).2.settings =
      e.settings := by
    rw [Forecast.run_statistics, Statistics.settings_changeAll]
    rfl
  rw [predict]
  dsimp only
  rw [settings, hsettings]

namespace Forecast

variable {α : Type}

/-- A forecast made of estimates that are not negative, in which service with a timetable leaves no
wait stop before the scheduled time. -/
structure Grounded (o : Outset α) (f : Forecast) : Prop where
  nonneg : ∀ p ∈ f.estimates, 0 ≤ p.value
  held : o.trip.frequencyBased = false → ∀ p ∈ f.predictions, p.kind = .departure →
    ∃ scheduled, o.trip.scheduledTime? p.index o.placement.serviceDay = some scheduled ∧
      scheduled ≤ p.time

/-- A forecast that goes forward in time from a time on. -/
structure Timely (start : Int) (f : Forecast) : Prop where
  start_le : ∀ p ∈ f.predictions, start ≤ p.time
  ordered : f.predictions.Pairwise (·.time ≤ ·.time)

/-- The estimates of a forecast added up. -/
def span (f : Forecast) : Int := (f.estimates.map (·.value)).sum

/-- The estimates of a forecast together fit into what is left of the 64-bit range after its start
and after each scheduled time of a predicted departure. -/
structure HasRoom (o : Outset α) (start : Int) (f : Forecast) : Prop where
  earliest_le : Time.earliest ≤ start
  start_le : start + f.span ≤ Time.latest
  scheduled_le : ∀ p ∈ f.predictions, p.kind = .departure →
    ∀ scheduled ∈ o.trip.scheduledTime? p.index o.placement.serviceDay,
      scheduled + f.span ≤ Time.latest

/-! ## Estimates and holds -/

theorem span_append (f g : Forecast) : (f ++ g).span = f.span + g.span := by
  have hestimates : (f ++ g).estimates = f.estimates ++ g.estimates := rfl
  rw [span, hestimates, List.map_append, List.sum_append]
  rfl

theorem Grounded.span_nonneg {o : Outset α} {f : Forecast} (h : f.Grounded o) : 0 ≤ f.span :=
  List.sum_nonneg (List.forall_mem_map.mpr h.nonneg)

theorem Grounded.append {o : Outset α} {f g : Forecast} (hf : f.Grounded o) (hg : g.Grounded o) :
    (f ++ g).Grounded o where
  nonneg p hp := (List.mem_append.mp hp).elim (hf.nonneg p) (hg.nonneg p)
  held hschedule p hp := (List.mem_append.mp hp).elim (hf.held hschedule p) (hg.held hschedule p)

theorem grounded_empty (o : Outset α) : empty.Grounded o := ⟨by simp [empty], by simp [empty]⟩

/-- An estimate for a way, and the arrival at its end. -/
theorem grounded_arrival (o : Outset α) (now : Int) (index : Nat) {e : Estimate} (he : 0 ≤ e.value)
    (time : Int) : Grounded o
      ⟨[predictionAt o now index .arrival time], [estimateRecord o now index .travel e]⟩ where
  nonneg := List.forall_mem_singleton.mpr he
  held _ := List.forall_mem_singleton.mpr fun hkind => by contradiction

theorem le_holdUntil (o : Outset α) (index : Nat) (ready : Int) :
    ready ≤ holdUntil o index ready := by
  rw [holdUntil]
  split
  · exact Int.le_refl ready
  · split
    · exact Int.le_max_left _ _
    · exact Int.le_refl ready

theorem scheduled_le_holdUntil {o : Outset α} (hschedule : o.trip.frequencyBased = false)
    {index : Nat} {scheduled : Int}
    (h : o.trip.scheduledTime? index o.placement.serviceDay = some scheduled) (ready : Int) :
    scheduled ≤ holdUntil o index ready := by
  rw [holdUntil, if_neg (by simp [hschedule]), h]
  exact Int.le_max_right _ _

/-- A vehicle is held until it is ready or until its scheduled time. -/
theorem holdUntil_eq_or (o : Outset α) (index : Nat) (ready : Int) :
    holdUntil o index ready = ready ∨
      holdUntil o index ready ∈ o.trip.scheduledTime? index o.placement.serviceDay := by
  rw [holdUntil]
  split
  · exact Or.inl rfl
  · split
    · rename_i scheduled hscheduled
      rw [hscheduled]
      rcases Int.le_total ready scheduled with hle | hle
      · exact Or.inr (congrArg some (Int.max_eq_right hle).symm)
      · exact Or.inl (Int.max_eq_left hle)
    · exact Or.inl rfl

theorem depart_grounded {s : Statistics Rat} (h : s.AllMeans fun m => 0 ≤ m.mean)
    (methods : List Method) (o : Outset Rat) (now : Int) (index : Nat) (arrival : Int) :
    (depart s methods o now index arrival).1.Grounded o := by
  have hvalue := Estimate.dwell_nonneg h now ⟨o.trip, index⟩ (situation s o) methods
  rw [depart]
  dsimp only
  split
  · rename_i hwait
    refine ⟨List.forall_mem_singleton.mpr hvalue, fun hschedule => ?_⟩
    refine List.forall_mem_singleton.mpr fun _ => ?_
    cases hpath : o.trip.stopPath? index with
    | none => simp [hpath] at hwait
    | some path =>
      have hscheduled : o.trip.scheduledTime? index o.placement.serviceDay =
          some (Time.wrap (o.placement.serviceDay + path.scheduled * 1000)) := by
        rw [Trip.scheduledTime?, hpath, Option.map_some]
      exact ⟨_, hscheduled, scheduled_le_holdUntil hschedule hscheduled _⟩
  · exact ⟨List.forall_mem_singleton.mpr hvalue, by simp⟩

/-- A vehicle leaves a stop when it is ready, or at the scheduled time of a predicted departure. -/
theorem depart_leaves {α : Type} [Scalar α] (s : Statistics α) (methods : List Method)
    (o : Outset α) (now : Int) (index : Nat) (arrival : Int) :
    let r := depart s methods o now index arrival
    let ready := Time.wrap (arrival + r.1.span)
    ready ≤ r.2 ∧ (∀ p ∈ r.1.predictions, p.time = r.2) ∧
      (r.2 = ready ∨ ∃ p ∈ r.1.predictions, p.kind = .departure ∧
        r.2 ∈ o.trip.scheduledTime? p.index o.placement.serviceDay) := by
  have hspan : ∀ (predictions : List Prediction) (e : PathEstimate),
      span ⟨predictions, [e]⟩ = e.value := fun _ _ => List.sum_singleton
  rw [depart]
  dsimp only
  split
  · rw [hspan]
    refine ⟨le_holdUntil o index _, List.forall_mem_singleton.mpr rfl, ?_⟩
    exact (holdUntil_eq_or o index _).imp_right fun h => ⟨_, List.mem_singleton_self _, rfl, h⟩
  · rw [hspan]
    exact ⟨Int.le_refl _, by simp, Or.inl rfl⟩

theorem walk_grounded (methods : List Method) (o : Outset Rat) (now : Int) (indices : List Nat)
    {s : Statistics Rat} (h : s.AllMeans fun m => 0 ≤ m.mean) (time : Int) (remaining : Rat) :
    (walk methods o now indices time remaining s).1.Grounded o := by
  induction indices generalizing s time remaining with
  | nil => exact grounded_empty o
  | cons index rest ih =>
    -- an estimate changes no mean, so that the rest of the walk goes by the same means
    have hafter := h.travel now ⟨o.trip, index⟩ (situation s o) methods
    have hvalue := Estimate.travel_nonneg h now ⟨o.trip, index⟩ (situation s o) methods
    rw [walk]
    dsimp only
    split
    · exact grounded_arrival o now index hvalue _
    · exact (grounded_arrival o now index hvalue _).append
        ((depart_grounded hafter methods o now index _).append (ih hafter _ _))

theorem run_grounded {s : Statistics Rat} (h : s.AllMeans fun m => 0 ≤ m.mean)
    (strategy : Strategy) (now : Int) (o : Outset Rat) : (run s strategy now o).1.Grounded o := by
  cases hstop : o.placement.atStop? o.trip s.settings.defaultRadius with
  | none =>
    simp only [run, hstop]
    exact walk_grounded _ o now _ h o.time _
  | some stop =>
    simp only [run, hstop]
    split
    · exact grounded_empty o
    · exact (depart_grounded h strategy.methods o now stop o.time).append
        (walk_grounded _ o now _ h _ 1)

/-! ## Forward in time -/

theorem timely_empty (start : Int) : empty.Timely start := ⟨by simp [empty], .nil⟩

/-- A forecast that goes on from the time up to which another one reaches. -/
theorem Timely.append {start reached : Int} {f g : Forecast} (hf : f.Timely start)
    (hreached : ∀ p ∈ f.predictions, p.time ≤ reached) (hle : start ≤ reached)
    (hg : g.Timely reached) : (f ++ g).Timely start where
  start_le p hp := by
    rcases List.mem_append.mp hp with hp | hp
    · exact hf.start_le p hp
    · exact Int.le_trans hle (hg.start_le p hp)
  ordered := List.pairwise_append.mpr
    ⟨hf.ordered, hg.ordered, fun p hp q hq => Int.le_trans (hreached p hp) (hg.start_le q hq)⟩

theorem timely_singleton {start time : Int} (hle : start ≤ time) (o : Outset α) (now : Int)
    (index : Nat) (kind : StopEventKind) (estimates : List PathEstimate) :
    Timely start ⟨[predictionAt o now index kind time], estimates⟩ where
  start_le := List.forall_mem_singleton.mpr hle
  ordered := List.pairwise_singleton _ _

/-- As far as there is room, times are added up exactly. -/
theorem HasRoom.wrap_add {o : Outset α} {start d : Int} {f : Forecast} (h : f.HasRoom o start)
    (hnonneg : 0 ≤ d) (hle : d ≤ f.span) : Time.wrap (start + d) = start + d := by
  have hfits : Time.Fits (start + d) := by
    have hfirst := h.earliest_le
    have hlast := h.start_le
    constructor <;> omega
  exact Time.wrap_of_fits hfits

/-- What is left of the room once the first part of a forecast is over. -/
theorem HasRoom.rest {o : Outset α} {start reached : Int} {f g : Forecast}
    (h : (f ++ g).HasRoom o start) (hf : 0 ≤ f.span) (hle : start ≤ reached)
    (hreached : reached + g.span ≤ Time.latest) : g.HasRoom o reached where
  earliest_le := Int.le_trans h.earliest_le hle
  start_le := hreached
  scheduled_le p hp hkind scheduled hscheduled := by
    have hroom := h.scheduled_le p (List.mem_append_right _ hp) hkind scheduled hscheduled
    rw [span_append] at hroom
    omega

/-- The dwell at a stop and the departure from it go forward in time, and what follows has room from
there on. -/
theorem depart_timely {s : Statistics Rat} (h : s.AllMeans fun m => 0 ≤ m.mean)
    (methods : List Method) (o : Outset Rat) (now : Int) (index : Nat) (arrival : Int)
    {onward : Forecast} (honward : 0 ≤ onward.span)
    (hroom : ((depart s methods o now index arrival).1 ++ onward).HasRoom o arrival) :
    let r := depart s methods o now index arrival
    r.1.Timely arrival ∧ (∀ p ∈ r.1.predictions, p.time ≤ r.2) ∧ arrival ≤ r.2 ∧
      onward.HasRoom o r.2 := by
  have hdwell := (depart_grounded h methods o now index arrival).span_nonneg
  obtain ⟨hready, htimes, hleft⟩ := depart_leaves s methods o now index arrival
  generalize depart s methods o now index arrival = r at hroom hdwell hready htimes hleft ⊢
  have hspan : (r.1 ++ onward).span = r.1.span + onward.span := span_append r.1 onward
  rw [hroom.wrap_add hdwell (by omega)] at hready hleft
  have hle : arrival ≤ r.2 := Int.le_trans (Int.le_add_of_nonneg_right hdwell) hready
  have hfits : r.2 + onward.span ≤ Time.latest := by
    rcases hleft with heq | ⟨p, hp, hkind, hscheduled⟩
    · have hreport := hroom.start_le
      omega
    · have hscheduled := hroom.scheduled_le p (List.mem_append_left _ hp) hkind _ hscheduled
      omega
  refine ⟨⟨?_, ?_⟩, fun p hp => Int.le_of_eq (htimes p hp), hle, hroom.rest hdwell hle hfits⟩
  · intro p hp
    rwa [htimes p hp]
  · refine List.pairwise_of_forall_mem_list fun p hp q hq => ?_
    rw [htimes p hp, htimes q hq]

/-- A walk goes forward from the time at which it is entered. -/
theorem walk_timely (methods : List Method) (o : Outset Rat) (now : Int) (indices : List Nat)
    {s : Statistics Rat} (h : s.AllMeans fun m => 0 ≤ m.mean) {time : Int} {remaining : Rat}
    (hremaining : 0 ≤ remaining) (hwhole : remaining ≤ 1)
    (hroom : (walk methods o now indices time remaining s).1.HasRoom o time) :
    (walk methods o now indices time remaining s).1.Timely time := by
  induction indices generalizing s time remaining with
  | nil => exact timely_empty time
  | cons index rest ih =>
    have hafter := h.travel now ⟨o.trip, index⟩ (situation s o) methods
    have hvalue := Estimate.travel_nonneg h now ⟨o.trip, index⟩ (situation s o) methods
    rw [walk] at hroom ⊢
    generalize Estimate.travel now ⟨o.trip, index⟩ (situation s o) methods s = e
      at hafter hvalue hroom ⊢
    dsimp only at hroom ⊢
    -- the leg takes no longer than the whole stop path
    obtain ⟨hleg, hshort⟩ := Scalar.round_mul_bounds hvalue hremaining hwhole
    generalize Scalar.round ((e.1.value : Rat) * remaining) = leg at hleg hshort hroom ⊢
    have harrival : time ≤ time + leg := Int.le_add_of_nonneg_right hleg
    have hspan : ∀ predictions : List Prediction,
        span ⟨predictions, [estimateRecord o now index .travel e.1]⟩ = e.1.value :=
      fun _ => List.sum_singleton
    split at hroom
    · rename_i hend
      rw [hroom.wrap_add hleg (le_of_le_of_eq hshort (hspan _).symm), if_pos hend]
      exact timely_singleton harrival o now index .arrival _
    · rename_i hend
      rw [if_neg hend]
      have hleaving := fun arrival =>
        (depart_grounded hafter methods o now index arrival).span_nonneg
      have honward := fun departure =>
        (walk_grounded methods o now rest hafter departure 1).span_nonneg
      have hwrap : Time.wrap (time + leg) = time + leg := by
        refine hroom.wrap_add hleg ?_
        rw [span_append, span_append, hspan]
        exact hshort.trans (le_add_of_nonneg_right (add_nonneg (hleaving _) (honward _)))
      rw [hwrap] at hroom ⊢
      have hfits := hroom.start_le
      rw [span_append, hspan] at hfits
      have hrest := hroom.rest (le_of_le_of_eq hvalue (hspan _).symm) harrival (by omega)
      obtain ⟨hleave, hreached, hleft, hroomy⟩ :=
        depart_timely hafter methods o now index (time + leg) (honward _) hrest
      have hgoes := hleave.append hreached hleft (ih hafter zero_le_one le_rfl hroomy)
      exact (timely_singleton harrival o now index .arrival _).append
        (List.forall_mem_singleton.mpr (Int.le_refl _)) harrival hgoes

/-- A forecast goes forward from the report on. -/
theorem run_timely {s : Statistics Rat} (h : s.AllMeans fun m => 0 ≤ m.mean) (strategy : Strategy)
    (now : Int) (o : Outset Rat) (hroom : (run s strategy now o).1.HasRoom o o.time) :
    (run s strategy now o).1.Timely o.time := by
  cases hstop : o.placement.atStop? o.trip s.settings.defaultRadius with
  | none =>
    simp only [run, hstop] at hroom ⊢
    exact walk_timely _ o now _ h (sub_nonneg.mpr o.placement.fraction_le_one)
      (sub_le_self 1 o.placement.fraction_nonneg) hroom
  | some stop =>
    simp only [run, hstop] at hroom ⊢
    split at hroom
    · rename_i hlast
      rw [if_pos hlast]
      exact timely_empty o.time
    · rename_i hlast
      rw [if_neg hlast]
      have honward := fun departure =>
        (walk_grounded strategy.methods o now (ahead o.trip (stop + 1)) h departure 1).span_nonneg
      obtain ⟨hleave, hreached, hleft, hroomy⟩ :=
        depart_timely h strategy.methods o now stop o.time (honward _) hroom
      exact hleave.append hreached hleft (walk_timely _ o now _ h zero_le_one le_rfl hroomy)

/-- What a horizon keeps of a forecast that goes forward in time comes before what it drops. -/
theorem Timely.horizon {start : Int} {f : Forecast} (h : f.Timely start)
    (time : Int) (secs : Nat) :
    f.predictions.filter (Engine.withinSeconds time secs) ++
      f.predictions.filter (fun p => !Engine.withinSeconds time secs p) = f.predictions := by
  refine filter_append_filter_not (h.ordered.imp ?_)
  intro p q hle hq
  rw [Engine.withinSeconds, decide_eq_true_eq] at hq ⊢
  exact Int.le_trans hle hq

end Forecast

end NextStop
