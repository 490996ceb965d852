import NextStop.Proofs.Engine.Standpoint
import NextStop.Proofs.Statistics.Answers

/-!
# Reports that can change places

Two reports of different vehicles on trips that share neither name nor stop do not see each other.
Whichever is taken first, the answers are the same, and so is the engine afterwards but for the
order of the records, in which only records of different vehicles change places,
`Engine.performAll_take_swap`.

This takes that the statistics have learned of events from reports only, so that every event at a
stop is of a trip that serves it, and that no cache is so full that an entry has to go before it
expires.
-/

namespace NextStop

open Statistics

/-! ## Whom a record is about -/

/-- The vehicle that a record is about. -/
def Record.vehicle {α : Type} : Record α → VehicleId
  | stopEvent e => e.vehicle
  | status e => e.vehicle
  | headway h => h.vehicle
  | position p => p.vehicle
  | prediction p => p.vehicle
  | pathEstimate p => p.vehicle

variable {α : Type} [Scalar α]

namespace Yield

/-- A cycle records nothing about other vehicles. -/
theorem vehicle_of_mem_records {s : Statistics α} {now : Int} {v : Vehicle α} {f : Engine.Fix α}
    {r : Record α} (hr : r ∈ records s now v f) : r.vehicle = v.id := by
  simp only [records, List.mem_append, List.mem_map] at hr
  rcases hr with ⟨p, hp, rfl⟩ | ⟨p, hp, rfl⟩ | ⟨h, hh, rfl⟩ | ⟨ev, hev, rfl⟩ | ⟨p, hp, rfl⟩
  · rw [estimates] at hp
    split at hp
    · exact ((forecast_about s now v f).estimates p hp).1
    · contradiction
  · exact (of_mem_predictions (List.mem_of_mem_filter hp)).1
  · rw [Option.mem_toList, headway] at hh
    split at hh
    · contradiction
    · obtain ⟨path, -, hgap⟩ := Option.bind_eq_some_iff.mp hh
      obtain ⟨ahead, -, rfl⟩ := Option.map_eq_some_iff.mp hgap
      rfl
  · exact (Passage.of_mem_events hev).1
  · rw [Option.mem_toList, position] at hp
    split at hp
    · obtain rfl := Option.some.inj hp
      rfl
    · contradiction

end Yield

namespace Effect

/-- A report records nothing about other vehicles. -/
theorem vehicle_of_mem_records {tt : Timetable α} {s : Statistics α} {x : Standing α} {now : Int}
    {m : MatchedReport α} (hid : (x.vehicle m.report.vehicle).id = m.report.vehicle)
    {r : Record α} (hr : r ∈ (ofReport tt s x now m).records) :
    r.vehicle = m.report.vehicle := by
  have hplaced : ∀ (p : Placement α) (t : Trip α),
      r ∈ (placed x ⟨m.report, p, t⟩ m.scheduleBased).2.toList.map Record.status →
        r.vehicle = m.report.vehicle := by
    intro p t hr
    obtain ⟨ev, hev, rfl⟩ := List.mem_map.mp hr
    exact (Vehicle.place_event (Option.mem_toList.mp hev)).2.trans hid
  rcases ofReport_cases tt s x now m with
    ⟨-, heffect⟩ | ⟨-, -, heffect⟩ | ⟨p, -, -, -, heffect⟩ | ⟨p, t, -, -, -, -, heffect⟩ |
      ⟨p, t, -, -, -, -, heffect⟩
  · rw [heffect] at hr
    contradiction
  · rw [heffect] at hr
    obtain ⟨ev, hev, rfl⟩ := List.mem_map.mp hr
    exact (Vehicle.misplace_event (Option.mem_toList.mp hev)).2.trans hid
  · rw [heffect] at hr
    contradiction
  · rw [heffect] at hr
    exact hplaced p t hr
  · rw [heffect] at hr
    rcases List.mem_append.mp hr with hr | hr
    · exact hplaced p t hr
    · obtain ⟨event, hvehicle⟩ := placed_eq x ⟨m.report, p, t⟩ m.scheduleBased
      rw [Yield.vehicle_of_mem_records hr, hvehicle]
      exact hid

end Effect

namespace Journal

omit [Scalar α] in
/-- Records that differ only in what does not pass a test leave such journals. -/
theorem filter_records_appendAll {test : Record α → Bool} {records records' : List (Record α)}
    (h : records.filter test = records'.filter test) (j : Journal α) :
    (j.appendAll records).records.filter test = (j.appendAll records').records.filter test := by
  cases j with
  | kept old =>
    simp only [Engine.appendAll_kept, Journal.records, Array.toList_appendList,
      List.filter_append, h]
  | queued queue =>
    have hnone : ∀ (rs : List (Record α)) (queue : WriteQueue α),
        ((queued queue).appendAll rs).records = [] := by
      intro rs
      induction rs with
      | nil => exact fun _ => rfl
      | cons r rest ih => exact fun queue => ih (queue.append r)
    rw [hnone, hnone]

end Journal

namespace Engine

/-! ## Engines that learn from reports only -/

/-- The caches are well kept, and every event at a stop is of a trip that serves it. -/
structure SelfTaught (e : Engine α) : Prop where
  kept : e.statistics.WellKept
  stems : e.statistics.Stems e.timetable

theorem SelfTaught.start (settings : Settings α) (timetable : Timetable α) (journal : Journal α) :
    (Engine.start settings timetable journal).SelfTaught where
  kept := .empty settings
  stems k entry hentry := by
    have hnone : (Engine.start settings timetable journal).statistics.stops.entries[k]? = none :=
      Std.TreeMap.getElem?_emptyc
    rw [hnone] at hentry
    contradiction

omit [Scalar α] in
theorem SelfTaught.congr {e e' : Engine α} (h : e.SelfTaught) (hsame : e.SameBasis e') :
    e'.SelfTaught where
  kept := hsame.statistics ▸ h.kept
  stems := by
    rw [hsame.statistics, hsame.timetable]
    exact h.stems

theorem SelfTaught.take {e : Engine α} (hfiled : e.Filed) (hnamed : e.timetable.Named)
    (h : e.SelfTaught) (now : Int) (m : MatchedReport α) : (e.take now m).2.SelfTaught := by
  have htake := (e.take_effect hfiled now m).2
  refine ⟨?_, ?_⟩
  · rw [htake.statistics_eq]
    exact h.kept.changeAll now _
  · rw [htake.statistics_eq, htake.timetable_eq]
    cases hm : m.trip? e.timetable with
    | none =>
      rw [effect, Effect.changes_eq_nil hm]
      exact h.stems
    | some t =>
      exact h.stems.changeAll (MatchedReport.trip?_id hnamed hm)
        (Effect.changes_of_trip? hm _ _) now

/-- Without a warm start, the statistics learn from reports only. -/
theorem SelfTaught.performAll {e : Engine α} (hfiled : e.Filed) (hnamed : e.timetable.Named)
    (h : e.SelfTaught) {calls : List (Int × Call α)}
    (hcold : ∀ now history, (now, Call.warmUp history) ∉ calls) :
    (e.performAll calls).SelfTaught := by
  induction calls generalizing e with
  | nil => exact h
  | cons call rest ih =>
    have hstep : (e.perform call).SelfTaught := by
      obtain ⟨now, call⟩ := call
      cases call with
      | report m => exact h.take hfiled hnamed now m
      | unassign id => exact h.congr (e.sameBasis_unassign now id)
      | warmUp history => exact absurd List.mem_cons_self (hcold now history)
      | sweep => exact h.congr (e.sameBasis_sweep now)
    exact ih (hfiled.performAll [call]) (e.timetable_perform call ▸ hnamed) hstep
      fun now history hmem => hcold now history (List.mem_cons_of_mem call hmem)

/-! ## Two reports -/

/-- A report pushes nothing out of the caches. -/
def Spares (e : Engine α) (now : Int) (m : MatchedReport α) : Prop :=
  SparesAll now e.statistics (writesOf now e.statistics (e.effect now m).changes)

instance (e : Engine α) (now : Int) (m : MatchedReport α) : Decidable (e.Spares now m) :=
  decidableSparesAll now _ _

/-- One engine comes from another by the effects that two reports would have on the latter. -/
structure UndergoesBoth (e : Engine α) (now : Int) (m n : MatchedReport α) (e' : Engine α) :
    Prop where
  timetable_eq : e'.timetable = e.timetable
  statistics_eq : e'.statistics =
    (e.statistics.changeAll now (e.effect now m).changes).changeAll now (e.effect now n).changes
  journal_eq : e'.journal =
    e.journal.appendAll ((e.effect now m).records ++ (e.effect now n).records)
  first : e'.standing m.report.vehicle = (e.effect now m).standing
  second : e'.standing n.report.vehicle = (e.effect now n).standing
  others : ∀ id, m.report.vehicle ≠ id → n.report.vehicle ≠ id → e'.standing id = e.standing id

section Pair

variable {e : Engine α} (hfiled : e.Filed) (hnamed : e.timetable.Named) (h : e.SelfTaught)
  {now : Int} {m n : MatchedReport α} (hne : m.report.vehicle ≠ n.report.vehicle)
  (hapart : ∀ t u, m.trip? e.timetable = some t → n.trip? e.timetable = some u → t.Apart u)
  (hm : e.Spares now m) (hn : e.Spares now n)
include hfiled hnamed h hne hapart hm hn

/-- A report has the same effect after one of another vehicle. -/
theorem effect_take (hnm : (e.take now n).2.Spares now m) :
    (e.take now n).2.effect now m = e.effect now m := by
  have htake := (e.take_effect hfiled now n).2
  rw [Spares, effect, htake.timetable_eq, htake.statistics_eq, htake.others _ hne.symm] at hnm
  rw [effect, effect, htake.timetable_eq, htake.statistics_eq, htake.others _ hne.symm]
  cases ht : m.trip? e.timetable with
  | none => exact Effect.ofReport_eq_of_trip? ht _ _ _
  | some t =>
    cases hu : n.trip? e.timetable with
    | none =>
      rw [effect, Effect.changes_eq_nil hu]
      rfl
    | some u =>
      have hsame := SameFor.of_changeAll h.kept h.stems (hapart t u ht hu)
        (MatchedReport.trip?_id hnamed ht) (MatchedReport.trip?_id hnamed hu)
        (Effect.changes_of_trip? hu _ _) hn
      exact Effect.ofReport_eq ht hsame _ hm hnm

/-- Two reports have the effects that each of them would have alone. -/
theorem take_take (hmn : (e.take now m).2.Spares now n) :
    ((e.take now m).2.take now n).1 = (e.effect now n).result ∧
      e.UndergoesBoth now m n ((e.take now m).2.take now n).2 := by
  have hfirst := (e.take_effect hfiled now m).2
  obtain ⟨hresult, hsecond⟩ :=
    (e.take now m).2.take_effect (hfiled.performAll [(now, .report m)]) now n
  have heffect := effect_take hfiled hnamed h hne.symm
    (fun t u ht hu => (hapart u t hu ht).symm) hn hm hmn
  rw [heffect] at hresult hsecond
  refine ⟨hresult, ?_, ?_, ?_, ?_, ?_, ?_⟩
  · exact hsecond.timetable_eq.trans hfirst.timetable_eq
  · rw [hsecond.statistics_eq, hfirst.statistics_eq]
  · rw [hsecond.journal_eq, hfirst.journal_eq, Journal.appendAll_append]
  · exact (hsecond.others _ hne.symm).trans hfirst.standing_eq
  · exact hsecond.standing_eq
  · exact fun id hid hid' => (hsecond.others id hid').trans (hfirst.others id hid)

/-- What two reports make of the statistics does not depend on their order. -/
theorem alike_take_take (hmn : (e.take now m).2.Spares now n)
    (hnm : (e.take now n).2.Spares now m) :
    ((e.statistics.changeAll now (e.effect now m).changes).changeAll now
        (e.effect now n).changes).Alike
      ((e.statistics.changeAll now (e.effect now n).changes).changeAll now
        (e.effect now m).changes) := by
  rw [Spares, effect_take hfiled hnamed h hne.symm (fun t u ht hu => (hapart u t hu ht).symm)
    hn hm hmn, (e.take_effect hfiled now m).2.statistics_eq] at hmn
  rw [Spares, effect_take hfiled hnamed h hne hapart hm hn hnm,
    (e.take_effect hfiled now n).2.statistics_eq] at hnm
  cases ht : m.trip? e.timetable with
  | none =>
    have hnothing : (e.effect now m).changes = [] := Effect.changes_eq_nil ht _ _
    rw [hnothing]
    exact .refl _
  | some t =>
    cases hu : n.trip? e.timetable with
    | none =>
      have hnothing : (e.effect now n).changes = [] := Effect.changes_eq_nil hu _ _
      rw [hnothing]
      exact .refl _
    | some u =>
      exact changeAll_swap h.kept h.stems (hapart t u ht hu) (MatchedReport.trip?_id hnamed ht)
        (MatchedReport.trip?_id hnamed hu) (Effect.changes_of_trip? ht _ _)
        (Effect.changes_of_trip? hu _ _) hm hmn hn hnm

end Pair

/-- Nor does what they make of the standing of any vehicle. -/
theorem UndergoesBoth.standing_eq {e e₁ e₂ : Engine α} {now : Int} {m n : MatchedReport α}
    (h₁ : e.UndergoesBoth now m n e₁) (h₂ : e.UndergoesBoth now n m e₂) (id : VehicleId) :
    e₁.standing id = e₂.standing id := by
  by_cases hm : m.report.vehicle = id
  · rw [← hm, h₁.first, h₂.second]
  · by_cases hn : n.report.vehicle = id
    · rw [← hn, h₁.second, h₂.first]
    · rw [h₁.others id hm hn, h₂.others id hn hm]

/-- Nor do the records about any vehicle, and their order. -/
theorem filter_effect_records {e : Engine α} (hfiled : e.Filed) (now : Int)
    {m n : MatchedReport α} (hne : m.report.vehicle ≠ n.report.vehicle) (id : VehicleId) :
    ((e.effect now m).records ++ (e.effect now n).records).filter (·.vehicle = id) =
      ((e.effect now n).records ++ (e.effect now m).records).filter (·.vehicle = id) := by
  have habout : ∀ k : MatchedReport α, ∀ r ∈ (e.effect now k).records,
      r.vehicle = k.report.vehicle := by
    intro k r hr
    have hid : ((e.standing k.report.vehicle).vehicle k.report.vehicle).id = k.report.vehicle :=
      hfiled.vehicle_id k.report.vehicle
    exact Effect.vehicle_of_mem_records hid hr
  have hnone : ∀ k : MatchedReport α, k.report.vehicle ≠ id →
      (e.effect now k).records.filter (·.vehicle = id) = [] := by
    intro k hk
    simp only [List.filter_eq_nil_iff, decide_eq_true_eq]
    exact fun r hr hid => hk ((habout k r hr).symm.trans hid)
  rw [List.filter_append, List.filter_append]
  by_cases hm : m.report.vehicle = id
  · rw [hnone n (hm ▸ hne.symm), List.append_nil, List.nil_append]
  · rw [hnone m hm, List.nil_append, List.append_nil]

/-! ## Engines that give the same answers -/

/-- Engines that have the same vehicles, predictions, public maps and watches, and statistics that
give the same answers. -/
structure SameAnswers (e e' : Engine α) : Prop where
  timetable_eq : e'.timetable = e.timetable
  vehicle?_eq : ∀ id : VehicleId, e'.vehicles[id]? = e.vehicles[id]?
  vehicles_eq : e'.vehicles.toList = e.vehicles.toList
  forVehicle_eq : ∀ id : VehicleId, e'.board.forVehicle id = e.board.forVehicle id
  forStop_same : ∀ (route : RouteId) (stop : StopId),
    Board.SameButForTies (e'.board.forStop route stop) (e.board.forStop route stop)
  all_same : Board.SameButForTies e'.board.all e.board.all
  vehicleCount_eq : e'.board.vehicleCount = e.board.vehicleCount
  shown?_eq : ∀ id : VehicleId, e'.live[id]? = e.live[id]?
  live_eq : e'.live.toList = e.live.toList
  heard?_eq : ∀ id : VehicleId, e'.watch[id]? = e.watch[id]?
  watch_eq : e'.watch.toList = e.watch.toList
  statistics : e.statistics.SameAnswers e'.statistics

theorem SameAnswers.of_standing {e e' : Engine α} (htimetable : e'.timetable = e.timetable)
    (hsound : e.board.Sound) (hsound' : e'.board.Sound)
    (hstanding : ∀ id, e'.standing id = e.standing id)
    (hstatistics : e.statistics.SameAnswers e'.statistics) : e.SameAnswers e' where
  timetable_eq := htimetable
  vehicle?_eq id := congrArg Standing.known (hstanding id)
  vehicles_eq := (Table.equiv_of_getElem? fun id =>
    congrArg Standing.known (hstanding id)).toList_eq
  forVehicle_eq id := congrArg Standing.listed (hstanding id)
  forStop_same route stop := by
    rw [hsound'.forStop_congr hsound fun id => congrArg Standing.listed (hstanding id)]
    exact .refl (hsound.shows_keys.forStop_sorted route stop)
  all_same := by
    rw [hsound'.all_congr hsound fun id => congrArg Standing.listed (hstanding id)]
    exact .refl hsound.shows_keys.all_sorted
  vehicleCount_eq :=
    hsound'.vehicleCount_congr hsound fun id => congrArg Standing.listed (hstanding id)
  shown?_eq id := congrArg Standing.shown (hstanding id)
  live_eq := (Table.equiv_of_getElem? fun id => congrArg Standing.shown (hstanding id)).toList_eq
  heard?_eq id := congrArg Standing.heard (hstanding id)
  watch_eq := (Table.equiv_of_getElem? fun id => congrArg Standing.heard (hstanding id)).toList_eq
  statistics := hstatistics

/-- After any run of calls without a warm start, two reports of different vehicles whose trips
share neither name nor stop can change places, if they push nothing out of the caches: each comes
to the same, the engines give the same answers afterwards, and the records about every vehicle
are the same in the same order. -/
theorem performAll_take_swap (settings : Settings α) {timetable : Timetable α}
    (hnamed : timetable.Named) (journal : Journal α) {calls : List (Int × Call α)}
    (hcold : ∀ now history, (now, Call.warmUp history) ∉ calls) (now : Int)
    {m n : MatchedReport α} (hne : m.report.vehicle ≠ n.report.vehicle)
    (hapart : ∀ t u, m.trip? timetable = some t → n.trip? timetable = some u → t.Apart u) :
    let e := (start settings timetable journal).performAll calls
    e.Spares now m → (e.take now m).2.Spares now n →
      e.Spares now n → (e.take now n).2.Spares now m →
      let e₁ := ((e.take now m).2.take now n).2
      let e₂ := ((e.take now n).2.take now m).2
      ((e.take now n).2.take now m).1 = (e.take now m).1 ∧
        ((e.take now m).2.take now n).1 = (e.take now n).1 ∧
        e₁.SameAnswers e₂ ∧
        (∃ records records', e₁.journal = e.journal.appendAll records ∧
          e₂.journal = e.journal.appendAll records' ∧
          ∀ id, records.filter (·.vehicle = id) = records'.filter (·.vehicle = id)) ∧
        ∀ id, e₁.journal.records.filter (·.vehicle = id) =
          e₂.journal.records.filter (·.vehicle = id) := by
  intro e hm hmn hn hnm e₁ e₂
  have hstart := Filed.start settings timetable journal
  have hfiled : e.Filed := hstart.performAll calls
  have hkept : e.timetable = timetable :=
    (start settings timetable journal).timetable_performAll calls
  have htaught : e.SelfTaught := (SelfTaught.start settings timetable journal).performAll hstart
    hnamed hcold
  rw [← hkept] at hnamed hapart
  obtain ⟨hresult, hboth⟩ := take_take hfiled hnamed htaught hne hapart hm hn hmn
  obtain ⟨hresult', hboth'⟩ := take_take hfiled hnamed htaught hne.symm
    (fun t u ht hu => (hapart u t hu ht).symm) hn hm hnm
  have halike := alike_take_take hfiled hnamed htaught hne hapart hm hn hmn hnm
  rw [← hboth.statistics_eq, ← hboth'.statistics_eq] at halike
  have hfilter := filter_effect_records hfiled now hne
  have hsound : ∀ k l : MatchedReport α, ((e.take now k).2.take now l).2.board.Sound := by
    intro k l
    have hrun := sound_performAll settings timetable journal
      (calls ++ [(now, .report k), (now, .report l)])
    rw [performAll_append] at hrun
    exact hrun
  refine ⟨?_, ?_, ?_, ⟨_, _, hboth.journal_eq, hboth'.journal_eq, hfilter⟩, fun id => ?_⟩
  · exact hresult'.trans (e.take_effect hfiled now m).1.symm
  · exact hresult.trans (e.take_effect hfiled now n).1.symm
  · exact .of_standing (hboth'.timetable_eq.trans hboth.timetable_eq.symm) (hsound m n)
      (hsound n m) (fun id => (hboth.standing_eq hboth' id).symm) halike.sameAnswers
  · rw [hboth.journal_eq, hboth'.journal_eq]
    exact Journal.filter_records_appendAll (hfilter id) e.journal

/-- A trip with two other stops. -/
def alongShore : Trip Rat where
  id := "shore"
  route := "2"
  direction := none
  block := "block"
  service := "weekdays"
  frequencyBased := false
  start := 0
  stopPaths := ["pier", "lighthouse"].map fun stop => ⟨stop, 60000, 0, 0, false, none⟩

/-- The timetable of two trips without a common stop. -/
def lineAndShore : Timetable Rat := .ofTrips [twoStops, alongShore]

/-- A bus sets off on one of them and a tram on the other. -/
def settingOff : List (Int × Call Rat) :=
  [(0, .report ⟨⟨"bus", 0, 0, 0, false⟩, some ⟨"line", "block", 0, 0, 250, 500⟩, false⟩),
    (0, .report ⟨⟨"tram", 0, 0, 0, false⟩, some ⟨"shore", "block", 0, 0, 250, 500⟩, false⟩)]

/-- The engine while both are under way. -/
def underWay : Engine Rat := (start .standard lineAndShore (.kept #[])).performAll settingOff

/-- The bus has reached the last stop. -/
def busArrives : MatchedReport Rat :=
  ⟨⟨"bus", 70000, 0, 0, false⟩, some ⟨"line", "block", 0, 1, 500, 500⟩, false⟩

/-- The tram has reached the last stop. -/
def tramArrives : MatchedReport Rat :=
  ⟨⟨"tram", 70000, 0, 0, false⟩, some ⟨"shore", "block", 0, 1, 500, 500⟩, false⟩

/-- Their arrivals can change places, which shows only in whose records come first. -/
theorem performAll_take_swap_underWay :
    let e₁ := ((underWay.take 70000 busArrives).2.take 70000 tramArrives).2
    let e₂ := ((underWay.take 70000 tramArrives).2.take 70000 busArrives).2
    (underWay.Spares 70000 busArrives ∧
      (underWay.take 70000 busArrives).2.Spares 70000 tramArrives ∧
      underWay.Spares 70000 tramArrives ∧
      (underWay.take 70000 tramArrives).2.Spares 70000 busArrives) ∧
      e₁.SameAnswers e₂ ∧
      e₁.journal.records.map Record.vehicle ≠ e₂.journal.records.map Record.vehicle := by
  intro e₁ e₂
  have hnamed : lineAndShore.Named := Timetable.named_ofTrips [twoStops, alongShore]
  have hcold : ∀ now history, (now, Call.warmUp history) ∉ settingOff := by simp [settingOff]
  have hbus : busArrives.trip? lineAndShore = some twoStops := rfl
  have htram : tramArrives.trip? lineAndShore = some alongShore := rfl
  have hapart : ∀ t u, busArrives.trip? lineAndShore = some t →
      tramArrives.trip? lineAndShore = some u → t.Apart u := by
    intro t u ht hu
    rw [hbus, Option.some.injEq] at ht
    rw [htram, Option.some.injEq] at hu
    subst ht hu
    constructor
    · decide
    · rintro stop ⟨p, hp, rfl⟩ ⟨q, hq, hstop⟩
      simp only [twoStops, alongShore, List.map_cons, List.map_nil, List.mem_cons,
        List.not_mem_nil, or_false] at hp hq
      rcases hp with rfl | rfl <;> rcases hq with rfl | rfl <;> simp at hstop
  have hspares : underWay.Spares 70000 busArrives ∧
      (underWay.take 70000 busArrives).2.Spares 70000 tramArrives ∧
      underWay.Spares 70000 tramArrives ∧
      (underWay.take 70000 tramArrives).2.Spares 70000 busArrives := by
    decide +kernel
  obtain ⟨hm, hmn, hn, hnm⟩ := hspares
  have hswap := performAll_take_swap .standard hnamed (.kept #[]) hcold 70000 (by decide) hapart
  obtain ⟨-, -, hsame, -⟩ := hswap hm hmn hn hnm
  exact ⟨⟨hm, hmn, hn, hnm⟩, hsame, by decide +kernel⟩

end Engine

end NextStop
