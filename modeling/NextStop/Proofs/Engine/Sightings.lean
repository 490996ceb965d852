import NextStop.Proofs.Engine.Outcomes
import NextStop.Proofs.Passage.Alternation

/-!
# Sightings of a vehicle

Of all calls to an engine only the reports of a vehicle that are placed bring a sighting of it,
and only the one before and the one at hand matter for what goes on record: the arrivals and
departures of a vehicle are what is told along its sightings, whatever else is called in between,
`Engine.performAll_told`. So they alternate at a stop as long as the sightings do not stray there,
`Engine.performAll_alternates`.
-/

namespace NextStop

/-- Where and when a vehicle was last placed. -/
def Vehicle.sighting? {α : Type} (v : Vehicle α) : Option (Sighting α) :=
  v.placement.bind fun p => v.placedAt.map fun time => ⟨p, time⟩

namespace Engine

variable {α : Type}

/-- The sighting of a vehicle that a call brings. -/
def Call.sighting? (id : VehicleId) : Call α → Option (Sighting α)
  | .report m =>
    if m.report.vehicle = id ∧ m.report.inConsist = false then
      m.placement.map fun p => ⟨p, m.report.time⟩
    else none
  | _ => none

/-- The sightings of a vehicle in a run of calls. -/
def sightings (id : VehicleId) (calls : List (Int × Call α)) : List (Sighting α) :=
  calls.filterMap fun call => call.2.sighting? id

theorem sightings_cons (id : VehicleId) (call : Int × Call α) (rest : List (Int × Call α)) :
    sightings id (call :: rest) = (call.2.sighting? id).toList ++ sightings id rest := by
  rw [sightings, List.filterMap_cons]
  cases call.2.sighting? id <;> rfl

/-! ## What becomes of the sighting -/

section Sighted

variable {e : Engine α} {id : VehicleId}

/-- The sighting of a vehicle after another one, or itself, was kept. -/
theorem sighting?_keep {v : Vehicle α} {moved : VehicleId} (hid : v.id = moved) :
    ((e.keep v).vehicle id).sighting? =
      if moved = id then v.sighting? else (e.vehicle id).sighting? := by
  rw [vehicle_keep, hid]
  split <;> rfl

theorem sighting?_takeUnplaced (hfiled : e.Filed) (r : Report α) :
    ((e.takeUnplaced r).vehicle id).sighting? = (e.vehicle id).sighting? := by
  have hmisplaced : ((e.vehicle r.vehicle).misplace r).1.id = r.vehicle ∧
      ((e.vehicle r.vehicle).misplace r).1.sighting? = (e.vehicle r.vehicle).sighting? := by
    rcases (e.vehicle r.vehicle).misplace_cases r with ⟨_, _, hmisplace, hdemote⟩ | hmisplace
    · rw [hmisplace]
      obtain ⟨rfl, rfl⟩ := Prod.mk.inj hdemote
      exact ⟨hfiled.vehicle_id r.vehicle, rfl⟩
    · rw [hmisplace]
      exact ⟨hfiled.vehicle_id r.vehicle, rfl⟩
  have hkept : ∀ e' : Engine α, e'.vehicle id = e.vehicle id →
      ((e'.keep ((e.vehicle r.vehicle).misplace r).1).vehicle id).sighting? =
        (e.vehicle id).sighting? := by
    intro e' hsame
    rw [sighting?_keep hmisplaced.1, hsame]
    split
    · rename_i hid
      rw [hmisplaced.2, hid]
    · rfl
  rw [takeUnplaced]
  dsimp only
  split
  · rename_i ev _
    obtain ⟨live, hdemote⟩ := e.afterDemotion_eq ((e.vehicle r.vehicle).misplace r).1 ev
    exact hkept _ (by rw [hdemote]; rfl)
  · exact hkept e rfl

/-- A vehicle that is taken off its assignment has not been sighted any more. -/
theorem sighting?_unassign (hfiled : e.Filed) (now : Int) (other : VehicleId) :
    ((e.unassign now other).2.vehicle id).sighting? =
      if other = id then none else (e.vehicle id).sighting? := by
  unfold unassign
  cases hv : e.vehicles[other]? with
  | none =>
    have hunknown : (e.vehicle other).sighting? = none := by
      rw [vehicle, hv]
      rfl
    show (e.vehicle id).sighting? = _
    split
    · rename_i hid
      rw [← hid, hunknown]
    · rfl
  | some v =>
    obtain ⟨live, hdemote⟩ := e.afterDemotion_eq (v.unassign now).1 (v.unassign now).2
    have hid : (v.unassign now).1.id = other := hfiled other v hv
    show (((e.afterDemotion (v.unassign now).1 (v.unassign now).2).keep
      (v.unassign now).1).vehicle id).sighting? = _
    rw [sighting?_keep hid, hdemote]
    split <;> rfl

variable [Scalar α]

/-- A cycle leaves its vehicle where it is, and does not keep it. -/
theorem sighting?_runCycle (e : Engine α) (now : Int) (v : Vehicle α) (f : Fix α)
    (id : VehicleId) :
    (e.runCycle now v f).2.1.id = v.id ∧ (e.runCycle now v f).2.1.sighting? = v.sighting? ∧
      (e.runCycle now v f).2.2.vehicle id = e.vehicle id := by
  obtain ⟨_, _, _, _, _, _, _, hrun, -⟩ := e.runCycle_eq now v f
  rw [hrun]
  exact ⟨rfl, rfl, rfl⟩

theorem sighting?_takePlaced (hfiled : e.Filed) (now : Int) {r : Report α}
    (hlead : r.inConsist = false) (p : Placement α) (t : Trip α) (scheduleBased : Bool) :
    ((e.takePlaced now r p t scheduleBased).2.vehicle id).sighting? =
      if r.vehicle = id then some ⟨p, r.time⟩ else (e.vehicle id).sighting? := by
  obtain ⟨lastEvent, hplace⟩ := (e.vehicle r.vehicle).place_eq r p t
  have hid := hfiled.placed_id r p t scheduleBased
  have hplaced : (e.placed r p t scheduleBased).sighting? = some ⟨p, r.time⟩ := by
    rw [placed, hplace]
    rfl
  have hrecorded : ∀ event, (e.recordChange event).vehicle id = e.vehicle id := by
    intro event
    obtain ⟨journal, hrecord⟩ := e.recordChange_eq event
    rw [hrecord]
    rfl
  rw [takePlaced_eq r p t scheduleBased e now hlead]
  split
  · show (((e.recordChange _).keep (e.placed r p t scheduleBased)).vehicle id).sighting? = _
    rw [sighting?_keep hid, hrecorded, hplaced]
  · obtain ⟨hcycle, hstays, hothers⟩ :=
      sighting?_runCycle (e.recordChange ((e.vehicle r.vehicle).place r p t).2) now
        (e.placed r p t scheduleBased) ⟨r, p, t⟩ id
    refine (sighting?_keep (hcycle.trans hid)).trans ?_
    rw [hothers, hrecorded, hstays, hplaced]

theorem sighting?_sweep (hfiled : e.Filed) (now : Int) :
    ((e.sweep now).2.vehicle id).sighting? = (e.vehicle id).sighting? := by
  have hvehicle : (e.sweep now).2.vehicle id =
      ((e.standing id).sweep e.settings now).vehicle id :=
    congrArg (·.vehicle id) (standing_sweep hfiled now id)
  rw [hvehicle]
  rcases Standing.known_sweep e.settings now (e.standing id) with
    ⟨-, hsame⟩ | ⟨v, cause, -, hknown, -, hdemoted⟩
  · rw [Standing.vehicle, hsame]
    rfl
  · have hv : e.vehicle id = v := vehicle_of_getElem? hknown
    rw [Standing.vehicle, hdemoted, hv]
    rfl

end Sighted

/-! ## What is told of it -/

variable [Scalar α]

/-- The arrivals and departures of a call. -/
def emitted (e : Engine α) : Int × Call α → List StopEvent
  | (now, .report m) => (e.outcome now m).stopEvents
  | _ => []

theorem perform_journal (e : Engine α) (call : Int × Call α) :
    ∃ records, (e.perform call).journal = e.journal.appendAll records ∧
      records.filterMap Record.stopEvent? = e.emitted call := by
  obtain ⟨now, call⟩ := call
  cases call with
  | report m =>
    obtain ⟨records, hjournal, haccounts⟩ := e.take_journal now m
    exact ⟨records, hjournal, haccounts.stopEvents⟩
  | unassign id =>
    rw [perform, unassign]
    split
    · exact ⟨[], rfl, rfl⟩
    · exact ⟨[.status _], e.journal_afterDemotion _ _, rfl⟩
  | warmUp history => exact ⟨[], rfl, rfl⟩
  | sweep => exact ⟨_, (e.sweep_journal now).1, Record.filterMap_stopEvent?_status _⟩

/-- A cycle reports the arrivals and departures since the sighting before. -/
theorem stopEvents_runCycle (e : Engine α) (now : Int) (v : Vehicle α) (f : Fix α) :
    (e.runCycle now v f).1.stopEvents = e.stopEvents v f := by
  rw [runCycle_eq_yield]
  rfl

/-- What a placed report answers of stops is what is told of the step from the sighting before. -/
theorem stopEvents_outcome {e : Engine α} (hfiled : e.Filed) (now : Int) {m : MatchedReport α}
    {p : Placement α} {t : Trip α} (hlead : m.report.inConsist = false)
    (htake : e.take now m = e.takePlaced now m.report p t m.scheduleBased) :
    (e.outcome now m).stopEvents = Passage.shown m.report.vehicle t e.settings.defaultRadius
      e.settings.utcOffset (e.vehicle m.report.vehicle).sighting? ⟨p, m.report.time⟩ := by
  obtain ⟨lastEvent, hplace⟩ := (e.vehicle m.report.vehicle).place_eq m.report p t
  rw [outcome, htake, takePlaced_result m.report p t m.scheduleBased e now hlead, Passage.shown]
  by_cases hout : t.stopPath? p.index = none
  · rw [if_pos hout, if_pos (by exact hout)]
    rfl
  · rw [if_neg hout, if_neg (by exact hout)]
    dsimp only
    rw [stopEvents_runCycle, stopEvents, settings_recordChange, hfiled.placed_id, placed, hplace]
    rfl

/-- What a call is to a vehicle. It does not sight the vehicle, and nothing is told of it, but it may
take the vehicle off its assignment; or it places the vehicle on a trip that is not known, and does
nothing; or it is the sighting that the vehicle is left with, and what is told is what happened since
the one before. -/
theorem sighted_cases {e : Engine α} (hfiled : e.Filed) (id : VehicleId) (call : Int × Call α) :
    let told := (e.emitted call).filter (·.vehicle == id)
    let before := (e.vehicle id).sighting?
    let after := ((e.perform call).vehicle id).sighting?
    (call.2.sighting? id = none ∧ told = [] ∧
      (after = before ∨ call.2 = .unassign id ∧ after = none)) ∨
    (∃ s, call.2.sighting? id = some s ∧ e.timetable.trip? s.placement.trip = none ∧ told = [] ∧
      after = before) ∨
    ∃ s t, call.2.sighting? id = some s ∧ e.timetable.trip? s.placement.trip = some t ∧
      told = Passage.shown id t e.settings.defaultRadius e.settings.utcOffset before s ∧
      after = some s := by
  obtain ⟨now, call⟩ := call
  cases call with
  | report m =>
    rcases e.take_cases now m with
      ⟨hcoupled, htake⟩ | ⟨hlead, hplacement, htake⟩ | ⟨p, hlead, hplacement, hunknown, htake⟩ |
        ⟨p, t, hlead, hplacement, ht, htake⟩
    · refine .inl ⟨by simp [Call.sighting?, hcoupled], ?_, .inl ?_⟩
      · simp [emitted, outcome, htake, Outcome.nothing]
      · simp [perform, htake]
    · refine .inl ⟨by simp [Call.sighting?, hplacement], ?_, .inl ?_⟩
      · simp [emitted, outcome, htake, Outcome.nothing]
      · simp [perform, htake, sighting?_takeUnplaced hfiled]
    · have hnothing : (e.emitted (now, .report m)).filter (·.vehicle == id) = [] := by
        simp [emitted, outcome, htake, Outcome.nothing]
      have hsame : ((e.perform (now, .report m)).vehicle id).sighting? =
          (e.vehicle id).sighting? := by
        simp [perform, htake]
      by_cases hid : m.report.vehicle = id
      · have hsighted : (Call.report m).sighting? id = some ⟨p, m.report.time⟩ := by
          simp [Call.sighting?, hid, hlead, hplacement]
        exact .inr (.inl ⟨_, hsighted, hunknown, hnothing, hsame⟩)
      · exact .inl ⟨by simp [Call.sighting?, hid], hnothing, .inl hsame⟩
    · have hafter : ((e.perform (now, .report m)).vehicle id).sighting? =
          if m.report.vehicle = id then some ⟨p, m.report.time⟩ else (e.vehicle id).sighting? := by
        rw [perform, htake, sighting?_takePlaced hfiled now hlead]
      have htold := stopEvents_outcome hfiled now hlead htake
      by_cases hid : m.report.vehicle = id
      · have hsighted : (Call.report m).sighting? id = some ⟨p, m.report.time⟩ := by
          simp [Call.sighting?, hid, hlead, hplacement]
        rw [if_pos hid] at hafter
        rw [hid] at htold
        refine .inr (.inr ⟨_, t, hsighted, ht, ?_, hafter⟩)
        rw [emitted, htold, List.filter_eq_self]
        exact fun ev hev => by simp [Passage.vehicle_of_mem_shown hev]
      · rw [if_neg hid] at hafter
        refine .inl ⟨by simp [Call.sighting?, hid], ?_, .inl hafter⟩
        rw [emitted, htold, List.filter_eq_nil_iff]
        exact fun ev hev => by simp [Passage.vehicle_of_mem_shown hev, hid]
  | unassign other =>
    refine .inl ⟨rfl, rfl, ?_⟩
    have hafter : ((e.perform (now, .unassign other)).vehicle id).sighting? = _ :=
      sighting?_unassign hfiled now other
    split at hafter
    · rename_i hid
      exact .inr ⟨by rw [hid], hafter⟩
    · exact .inl hafter
  | warmUp history => exact .inl ⟨rfl, rfl, .inl rfl⟩
  | sweep => exact .inl ⟨rfl, rfl, .inl (sighting?_sweep hfiled now)⟩

/-- A vehicle that is placed on one trip only, and is not taken off its assignment, is last sighted
where a call sights it, and otherwise where it was; and what is told of a call is what is told along
the sighting that it brings. -/
theorem sighted_on {e : Engine α} (hfiled : e.Filed) {id : VehicleId} {trip : Trip α}
    {call : Int × Call α} (hassigned : call.2 ≠ .unassign id)
    (htrip : ∀ s, call.2.sighting? id = some s →
      e.timetable.trip? s.placement.trip = some trip) :
    ((e.perform call).vehicle id).sighting? =
        (call.2.sighting? id).or (e.vehicle id).sighting? ∧
      (e.emitted call).filter (·.vehicle == id) =
        Passage.told id trip e.settings.defaultRadius e.settings.utcOffset
          (e.vehicle id).sighting? (call.2.sighting? id).toList := by
  rcases sighted_cases hfiled id call with
    ⟨hnone, htold, hafter⟩ | ⟨s, hsome, hunknown, -⟩ | ⟨s, t, hsome, ht, htold, hafter⟩
  · rw [hnone, htold]
    exact ⟨hafter.resolve_right fun h => hassigned h.1, rfl⟩
  · rw [htrip s hsome] at hunknown
    contradiction
  · obtain rfl : t = trip := Option.some.inj (ht.symm.trans (htrip s hsome))
    rw [hsome, htold, hafter, Option.toList_some, Passage.told, Passage.told, List.append_nil]
    exact ⟨rfl, rfl⟩

/-! ## Runs -/

/-- In a run of calls that does not take a vehicle off its assignment and places it on one trip
only, its arrivals and departures are what is told along its sightings. -/
theorem performAll_told {e : Engine α} (hfiled : e.Filed) {id : VehicleId} {trip : Trip α}
    {calls : List (Int × Call α)} (hassigned : ∀ now, (now, .unassign id) ∉ calls)
    (htrip : ∀ s ∈ sightings id calls, e.timetable.trip? s.placement.trip = some trip) :
    ∃ records, (e.performAll calls).journal = e.journal.appendAll records ∧
      (records.filterMap Record.stopEvent?).filter (·.vehicle == id) =
        Passage.told id trip e.settings.defaultRadius e.settings.utcOffset
          (e.vehicle id).sighting? (sightings id calls) := by
  induction calls generalizing e with
  | nil => exact ⟨[], rfl, rfl⟩
  | cons call rest ih =>
    rw [sightings_cons] at htrip ⊢
    have hcall : ∀ s, call.2.sighting? id = some s →
        e.timetable.trip? s.placement.trip = some trip := fun s hs =>
      htrip s (List.mem_append_left _ (by rw [hs]; exact List.mem_singleton_self s))
    obtain ⟨records, hjournal, hemitted⟩ := e.perform_journal call
    have hsettings : (e.perform call).settings = e.settings := settings_performAll hfiled [call]
    have htimetable := e.timetable_perform call
    have hnext : (e.perform call).Filed := hfiled.performAll [call]
    obtain ⟨later, hrest, htold⟩ := ih hnext
      (fun now h => hassigned now (List.mem_cons_of_mem call h)) fun s hs => by
        rw [htimetable]
        exact htrip s (List.mem_append_right _ hs)
    obtain ⟨hafter, hcalled⟩ :=
      sighted_on hfiled (fun h => hassigned call.1 (h ▸ List.mem_cons_self)) hcall
    refine ⟨records ++ later, ?_, ?_⟩
    · rw [Journal.appendAll_append, ← hjournal]
      exact hrest
    · rw [List.filterMap_append, List.filter_append, hemitted, hcalled, htold, hsettings, hafter,
        Passage.told_toList_append]

/-- Along a run of calls that does not take a vehicle off its assignment and places it on one trip
only, its arrivals at a stop and departures from it alternate, if its sightings do not stray
there, from where it was before on. -/
theorem performAll_alternates (settings : Settings α) (timetable : Timetable α)
    (journal : Journal α) (before calls : List (Int × Call α)) {id : VehicleId} {name : TripId}
    {trip : Trip α} (htrip : timetable.trip? name = some trip) (stop : Nat)
    (hassigned : ∀ now, (now, .unassign id) ∉ calls)
    (hplaced : ∀ s ∈ sightings id calls, s.placement.trip = name) :
    let e := (start settings timetable journal).performAll before
    ((e.vehicle id).sighting?.toList ++ sightings id calls).IsChain
        (fun s t => ¬Passage.Strays trip settings.defaultRadius stop s t) →
      ∃ records, (e.performAll calls).journal = e.journal.appendAll records ∧
        Alternates stop
          ((records.filterMap Record.stopEvent?).filter (·.vehicle == id)) := by
  intro e hsteady
  have hfiled : e.Filed := (Filed.start settings timetable journal).performAll before
  have hsettings : e.settings = settings :=
    settings_performAll (Filed.start settings timetable journal) before
  have htimetable : e.timetable = timetable := timetable_performAll _ before
  have hon : ∀ s ∈ sightings id calls, e.timetable.trip? s.placement.trip = some trip := by
    intro s hs
    rw [htimetable, hplaced s hs]
    exact htrip
  obtain ⟨records, hjournal, htold⟩ := performAll_told hfiled hassigned hon
  refine ⟨records, hjournal, ?_⟩
  rw [htold]
  exact Passage.alternates_told (hsettings ▸ hsteady) id e.settings.utcOffset

/-- An engine with a trip of three stops that is asked for arrivals and departures only. -/
def lineEngine : Engine Rat :=
  start { Settings.standard with stopEventsOnly := true } (.ofTrips [Passage.threeStops]) (.kept #[])

/-- Reports of a bus on that trip, by stop path, distance along it, its length, and time. -/
def busReports (rows : List (Nat × Rat × Rat × Int)) : List (Int × Call Rat) :=
  rows.map fun (index, along, length, time) =>
    (time, .report ⟨⟨"bus", time, 0, 0, false⟩, some ⟨"line", "block", 0, index, along, length⟩,
      false⟩)

/-- A bus goes forth and back before the stop in the middle, at it and behind it, and some of its
reports are late; none of this is straying. -/
theorem performAll_alternates_bus :
    let calls := busReports [(1, 300, 500, 30000), (1, 200, 500, 40000), (1, 480, 500, 60000),
      (1, 500, 500, 50000), (2, 100, 500, 90000), (2, 300, 500, 85000), (2, 490, 500, 120000)]
    let e := lineEngine.performAll (busReports [(1, 250, 500, 0)])
    ((e.vehicle "bus").sighting?.toList ++ sightings "bus" calls).IsChain
        (fun s t => ¬Passage.Strays Passage.threeStops 25 1 s t) ∧
      (∃ records, (e.performAll calls).journal = e.journal.appendAll records ∧
        Alternates 1 ((records.filterMap Record.stopEvent?).filter (·.vehicle == "bus"))) ∧
      ((e.performAll calls).journal.records.filterMap Record.stopEvent?).map
        StopEvent.milestone = [(.arrival, 1), (.departure, 1), (.arrival, 2)] := by
  intro calls e
  have hsteady : ((e.vehicle "bus").sighting?.toList ++ sightings "bus" calls).IsChain
      (fun s t => ¬Passage.Strays Passage.threeStops 25 1 s t) := by
    decide +kernel
  refine ⟨hsteady, ?_, by decide +kernel⟩
  have hline : (Timetable.ofTrips [Passage.threeStops]).trip? "line" = some Passage.threeStops := rfl
  exact performAll_alternates { Settings.standard with stopEventsOnly := true }
    (.ofTrips [Passage.threeStops]) (.kept #[]) (busReports [(1, 250, 500, 0)]) calls hline 1
    (by simp [calls, busReports]) (by decide +kernel) hsteady

/-- Arrivals and departures need not alternate. A bus that arrived at the stop in the middle may be
taken away from it by a report that goes back, by a late one, or by one on a stop path that the
trip does not have, and then arrives once more; and one that departed from it may come to it again
from beyond, and then departs once more. -/
theorem performAll_strays_bus :
    let told (rows : List (Nat × Rat × Rat × Int)) : List StopEvent :=
      (lineEngine.performAll (busReports rows)).journal.records.filterMap Record.stopEvent?
    let back := told [(1, 250, 500, 0), (1, 500, 500, 60000), (1, 250, 500, 90000),
      (1, 500, 500, 120000)]
    let late := told [(1, 250, 500, 0), (1, 480, 500, 60000), (2, 250, 500, 30000),
      (1, 250, 500, 40000), (1, 500, 500, 100000)]
    let rejected := told [(1, 250, 500, 0), (1, 500, 500, 60000), (9, 0, 500, 70000),
      (1, 250, 500, 80000), (1, 500, 500, 120000)]
    let beyond := told [(1, 500, 500, 0), (2, 100, 500, 60000), (2, 25, 60, 90000),
      (2, 250, 500, 120000)]
    back.map StopEvent.milestone = [(.arrival, 1), (.arrival, 1)] ∧ ¬Alternates 1 back ∧
      late.map StopEvent.milestone = [(.arrival, 1), (.arrival, 1)] ∧ ¬Alternates 1 late ∧
      rejected.map StopEvent.milestone = [(.arrival, 1), (.arrival, 1)] ∧
        ¬Alternates 1 rejected ∧
      beyond.map StopEvent.milestone = [(.departure, 1), (.departure, 1)] ∧
        ¬Alternates 1 beyond := by
  decide +kernel

end Engine

end NextStop
