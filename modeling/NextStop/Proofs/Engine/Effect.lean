import NextStop.Proofs.Engine.Steps
import NextStop.Proofs.Engine.Yield

/-!
# The effect of a report

What a report comes to is a function of the timetable, the statistics and what the engine has on
its one vehicle, `Effect.ofReport`: the answer, the records, the changes of the statistics and the
new standing of the vehicle. `Engine.take_effect` says that the engine after a report is the one
before with that effect and nothing else.

With it every call is an operation on single standings, `Engine.standing_perform`.
-/

namespace NextStop

/-- What a report comes to. -/
structure Effect (α : Type) where
  result : Except EngineError Outcome
  records : List (Record α)
  changes : List (Statistics.Change α)
  /-- What there is on the vehicle afterwards. -/
  standing : Standing α

namespace Effect

variable {α : Type} [Scalar α]

/-- The effect of a report that could not be placed. -/
def ofUnplaced (x : Standing α) (r : Report α) : Effect α :=
  let (v, event) := (x.vehicle r.vehicle).misplace r
  let y := if event.isSome then x.demote v else x.keep v
  { result := .ok .nothing
    records := event.toList.map .status
    changes := []
    standing := y.hear r.time }

/-- The vehicle of a report that is placed, as it comes to be processed. -/
def placed (x : Standing α) (f : Engine.Fix α) (scheduleBased : Bool) :
    Vehicle α × Option StatusEvent :=
  let (v, event) := (x.vehicle f.report.vehicle).place f.report f.placement f.trip
  ({ v with scheduleBased := scheduleBased }, event)

/-- The effect of a report that was placed on a stop path which its trip does not have. -/
def rejected (x : Standing α) (f : Engine.Fix α) (scheduleBased : Bool) : Effect α where
  result := .error (.stopPathOutOfRange f.trip.id f.placement.index f.trip.stopPaths.length)
  records := (placed x f scheduleBased).2.toList.map .status
  changes := []
  standing := (x.keep (placed x f scheduleBased).1).hear f.report.time

/-- The effect of a report that goes through a cycle. -/
def processed (s : Statistics α) (x : Standing α) (now : Int) (f : Engine.Fix α)
    (scheduleBased : Bool) : Effect α :=
  let v := (placed x f scheduleBased).1
  let w := Yield.vehicle s now v f
  let listed := if s.settings.stopEventsOnly then x.listed else Yield.predictions s now v f
  { result := .ok (Yield.outcome s now v f)
    records := (placed x f scheduleBased).2.toList.map .status ++ Yield.records s now v f
    changes := Yield.changes s now v f
    standing := (({ x with listed := listed }.publish w).keep w).hear f.report.time }

/-- The effect of a report that was placed on a trip. -/
def ofPlaced (s : Statistics α) (x : Standing α) (now : Int) (f : Engine.Fix α)
    (scheduleBased : Bool) : Effect α :=
  if f.trip.stopPath? f.placement.index = none then rejected x f scheduleBased
  else processed s x now f scheduleBased

/-- The effect of a report. -/
def ofReport (tt : Timetable α) (s : Statistics α) (x : Standing α) (now : Int)
    (m : MatchedReport α) : Effect α :=
  if m.report.inConsist then ⟨.ok .nothing, [], [], x⟩
  else
    match m.placement with
    | none => ofUnplaced x m.report
    | some p =>
      match tt.trip? p.trip with
      | none => ⟨.error (.unknownTrip p.trip), [], [], x⟩
      | some t => ofPlaced s x now ⟨m.report, p, t⟩ m.scheduleBased

/-- What a report comes to: nothing, it cannot be placed, its trip is unknown, its stop path is, or
it goes through a cycle. -/
theorem ofReport_cases (tt : Timetable α) (s : Statistics α) (x : Standing α) (now : Int)
    (m : MatchedReport α) :
    (m.report.inConsist = true ∧ ofReport tt s x now m = ⟨.ok .nothing, [], [], x⟩) ∨
    (m.report.inConsist = false ∧ m.placement = none ∧
      ofReport tt s x now m = ofUnplaced x m.report) ∨
    (∃ p, m.report.inConsist = false ∧ m.placement = some p ∧ tt.trip? p.trip = none ∧
      ofReport tt s x now m = ⟨.error (.unknownTrip p.trip), [], [], x⟩) ∨
    (∃ p t, m.report.inConsist = false ∧ m.placement = some p ∧ tt.trip? p.trip = some t ∧
      t.stopPath? p.index = none ∧
      ofReport tt s x now m = rejected x ⟨m.report, p, t⟩ m.scheduleBased) ∨
    ∃ p t, m.report.inConsist = false ∧ m.placement = some p ∧ tt.trip? p.trip = some t ∧
      t.stopPath? p.index ≠ none ∧
      ofReport tt s x now m = processed s x now ⟨m.report, p, t⟩ m.scheduleBased := by
  cases hlead : m.report.inConsist with
  | true => simp [ofReport, hlead]
  | false =>
    cases hp : m.placement with
    | none => simp [ofReport, hlead, hp]
    | some p =>
      cases ht : tt.trip? p.trip with
      | none => simp [ofReport, hlead, hp, ht]
      | some t =>
        by_cases hout : t.stopPath? p.index = none
        · simp [ofReport, hlead, hp, ht, ofPlaced, hout]
        · simp [ofReport, hlead, hp, ht, ofPlaced, hout]

omit [Scalar α] in
/-- A report that cannot be placed demotes a vehicle that is predictable. -/
theorem standing_ofUnplaced (x : Standing α) (r : Report α) :
    ((x.vehicle r.vehicle).predictable = false ∧
      (ofUnplaced x r).standing =
        (x.keep { x.vehicle r.vehicle with lastReport := some r }).hear r.time) ∨
    ((x.vehicle r.vehicle).predictable = true ∧
      (ofUnplaced x r).standing = (x.demote (Vehicle.demote
        { x.vehicle r.vehicle with lastReport := some r } .noMatch "No match for AVL report"
          r.time).1).hear r.time) := by
  cases hpredictable : (x.vehicle r.vehicle).predictable with
  | false => simp [ofUnplaced, Vehicle.misplace, hpredictable]
  | true => simp [ofUnplaced, Vehicle.misplace, hpredictable]

omit [Scalar α] in
/-- The vehicle of a report that is placed. -/
theorem placed_eq (x : Standing α) (f : Engine.Fix α) (scheduleBased : Bool) :
    ∃ event, (placed x f scheduleBased).1 = { x.vehicle f.report.vehicle with
      placement := some f.placement
      trip := some f.trip
      placedAt := some f.report.time
      previous := (x.vehicle f.report.vehicle).placement
      previousAt := (x.vehicle f.report.vehicle).placedAt
      lastReport := some f.report
      predictable := true
      scheduleBased := scheduleBased
      lastEvent := event } := by
  obtain ⟨event, hplace⟩ :=
    (x.vehicle f.report.vehicle).place_eq f.report f.placement f.trip
  exact ⟨event, congrArg (fun v : Vehicle α => { v with scheduleBased := scheduleBased }) hplace⟩

end Effect

namespace Engine

variable {α : Type} [Scalar α]

/-- The effect of a report on an engine. -/
def effect (e : Engine α) (now : Int) (m : MatchedReport α) : Effect α :=
  .ofReport e.timetable e.statistics (e.standing m.report.vehicle) now m

/-- One engine comes from another by an effect on a vehicle. -/
structure Undergoes (e : Engine α) (now : Int) (id : VehicleId) (x : Effect α)
    (e' : Engine α) : Prop where
  timetable_eq : e'.timetable = e.timetable
  statistics_eq : e'.statistics = e.statistics.changeAll now x.changes
  journal_eq : e'.journal = e.journal.appendAll x.records
  standing_eq : e'.standing id = x.standing
  others : ∀ other, id ≠ other → e'.standing other = e.standing other

theorem Undergoes.nothing (e : Engine α) (now : Int) (id : VehicleId)
    (result : Except EngineError Outcome) :
    e.Undergoes now id ⟨result, [], [], e.standing id⟩ e :=
  ⟨rfl, rfl, rfl, rfl, fun _ _ => rfl⟩

theorem takeUnplaced_effect {e : Engine α} (hfiled : e.Filed) (now : Int) (r : Report α) :
    e.Undergoes now r.vehicle (.ofUnplaced (e.standing r.vehicle) r) (e.takeUnplaced r) := by
  have hid : (e.vehicle r.vehicle).id = r.vehicle := hfiled.vehicle_id r.vehicle
  have hvehicle : (e.standing r.vehicle).vehicle r.vehicle = e.vehicle r.vehicle := rfl
  rw [Effect.ofUnplaced, takeUnplaced, hvehicle]
  rcases (e.vehicle r.vehicle).misplace_cases r with
    ⟨v, event, hmisplace, hdemote⟩ | hmisplace
  · have hv : v.id = r.vehicle := by
      rw [← hid]
      exact (congrArg (fun d => d.1.id) hdemote).symm
    obtain ⟨live, hlive⟩ := e.afterDemotion_eq v event
    have hstanding := e.standing_afterDemotion_keep v event
    rw [hmisplace]
    dsimp only
    refine ⟨?_, ?_, ?_, ?_, ?_⟩
    · exact (e.sameBasis_afterDemotion v event).timetable
    · rw [hlive]; rfl
    · exact e.journal_afterDemotion v event
    · rw [standing_watchFrom, if_pos rfl, hstanding, if_pos hv]
      rfl
    · intro other hne
      rw [standing_watchFrom, if_neg hne, hstanding, if_neg (hv ▸ hne)]
  · have hstanding := e.standing_keep_watchFrom
      (show ({ e.vehicle r.vehicle with lastReport := some r } : Vehicle α).id = r.vehicle from hid)
      r.time
    rw [hmisplace]
    refine ⟨rfl, rfl, rfl, ?_, ?_⟩
    · exact (hstanding r.vehicle).trans (if_pos rfl)
    · intro other hne
      exact (hstanding other).trans (if_neg hne)

omit [Scalar α] in
theorem recordChange_eq_appendAll (e : Engine α) (event : Option StatusEvent) :
    e.recordChange event =
      { e with journal := e.journal.appendAll (event.toList.map .status) } := by
  cases event <;> rfl

/-- The engine once the vehicle of a cycle is kept and watched. -/
theorem cycle_undergoes (e : Engine α) (now : Int) {v : Vehicle α} {id : VehicleId}
    (hid : v.id = id) (f : Fix α) (time : Int) :
    e.Undergoes now id
      { result := .ok (Yield.outcome e.statistics now v f)
        records := Yield.records e.statistics now v f
        changes := Yield.changes e.statistics now v f
        standing := (({ e.standing id with
          listed := if e.settings.stopEventsOnly then (e.standing id).listed
            else Yield.predictions e.statistics now v f }.publish
          (Yield.vehicle e.statistics now v f)).keep
            (Yield.vehicle e.statistics now v f)).hear time }
      (((e.runCycle now v f).2.2.keep (e.runCycle now v f).2.1).watchFrom id time) := by
  have hvehicle : (e.runCycle now v f).2.1 = Yield.vehicle e.statistics now v f := by
    rw [runCycle_eq_yield]
  have hstanding := (e.runCycle now v f).2.2.standing_keep_watchFrom
    (v := Yield.vehicle e.statistics now v f) hid time
  rw [hvehicle]
  refine ⟨?_, ?_, ?_, ?_, ?_⟩
  · rw [runCycle_eq_yield]
    exact timetable_publish _ _
  · rw [runCycle_eq_yield]
    exact statistics_publish _ _
  · rw [runCycle_eq_yield]
    exact journal_publish _ _
  · rw [hstanding, if_pos rfl, standing_yield, if_pos hid]
  · intro other hne
    rw [hstanding, if_neg hne, standing_yield, if_neg (hid ▸ hne)]

theorem takePlaced_effect {e : Engine α} (hfiled : e.Filed) (now : Int) (f : Fix α)
    (scheduleBased : Bool) (hlead : f.report.inConsist = false) :
    let x : Effect α :=
      .ofPlaced e.statistics (e.standing f.report.vehicle) now f scheduleBased
    let taken := e.takePlaced now f.report f.placement f.trip scheduleBased
    taken.1 = x.result ∧ e.Undergoes now f.report.vehicle x taken.2 := by
  intro x taken
  obtain ⟨r, p, t⟩ := f
  have hid : (e.placed r p t scheduleBased).id = r.vehicle :=
    hfiled.placed_id r p t scheduleBased
  have hresult : taken.1 = _ := takePlaced_result r p t scheduleBased e now hlead
  have htaken : taken.2 = _ := takePlaced_eq r p t scheduleBased e now hlead
  by_cases hout : t.stopPath? p.index = none
  · have hx : x = .rejected (e.standing r.vehicle) ⟨r, p, t⟩ scheduleBased := if_pos hout
    have hstanding := (e.recordChange ((e.vehicle r.vehicle).place r p t).2).standing_keep_watchFrom
      hid r.time
    simp only [standing_recordChange] at hstanding
    rw [if_pos hout] at hresult htaken
    rw [hresult, htaken, hx]
    refine ⟨rfl, ?_, ?_, ?_, ?_, ?_⟩
    · exact e.timetable_recordChange _
    · rw [recordChange_eq_appendAll]; rfl
    · exact e.journal_recordChange _
    · exact (hstanding r.vehicle).trans (if_pos rfl)
    · intro other hne
      exact (hstanding other).trans (if_neg hne)
  · have hx : x = .processed e.statistics (e.standing r.vehicle) now ⟨r, p, t⟩ scheduleBased :=
      if_neg hout
    have hcycle := (e.recordChange ((e.vehicle r.vehicle).place r p t).2).cycle_undergoes now
      hid ⟨r, p, t⟩ r.time
    have hrecord := e.recordChange_eq_appendAll ((e.vehicle r.vehicle).place r p t).2
    have hstatistics := congrArg Engine.statistics hrecord
    rw [if_neg hout] at hresult htaken
    rw [hresult, htaken, hx]
    refine ⟨?_, ?_, ?_, ?_, ?_, ?_⟩
    · rw [runCycle_eq_yield, hstatistics]
      rfl
    · exact hcycle.timetable_eq.trans (e.timetable_recordChange _)
    · rw [hcycle.statistics_eq, hstatistics]
      rfl
    · rw [hcycle.journal_eq, e.journal_recordChange, ← Journal.appendAll_append, hstatistics]
      rfl
    · rw [hcycle.standing_eq, standing_recordChange, settings_recordChange, hstatistics]
      rfl
    · intro other hne
      rw [hcycle.others other hne, standing_recordChange]

/-- A report has its effect, and no other. -/
theorem take_effect {e : Engine α} (hfiled : e.Filed) (now : Int) (m : MatchedReport α) :
    (e.take now m).1 = (e.effect now m).result ∧
      e.Undergoes now m.report.vehicle (e.effect now m) (e.take now m).2 := by
  rcases e.take_cases now m with
    ⟨hcoupled, htake⟩ | ⟨hlead, hp, htake⟩ | ⟨p, hlead, hp, ht, htake⟩ |
      ⟨p, t, hlead, hp, ht, htake⟩
  · simp only [htake, effect, Effect.ofReport, hcoupled, if_true]
    exact ⟨trivial, .nothing e now _ _⟩
  · simp only [htake, effect, Effect.ofReport, hlead, hp, Bool.false_eq_true, if_false]
    exact ⟨rfl, takeUnplaced_effect hfiled now m.report⟩
  · simp only [htake, effect, Effect.ofReport, hlead, hp, ht, Bool.false_eq_true, if_false]
    exact ⟨trivial, .nothing e now _ _⟩
  · simp only [htake, effect, Effect.ofReport, hlead, hp, ht, Bool.false_eq_true, if_false]
    exact takePlaced_effect hfiled now ⟨m.report, p, t⟩ m.scheduleBased hlead

end Engine

/-! ## Calls as operations on standings -/

/-- The standing of a vehicle after a call, from what the engine has besides. -/
def Standing.perform {α : Type} [Scalar α] (tt : Timetable α) (s : Statistics α)
    (id : VehicleId) (x : Standing α) : Int × Engine.Call α → Standing α
  | (now, .report m) =>
    if m.report.vehicle = id then (Effect.ofReport tt s x now m).standing else x
  | (now, .unassign other) =>
    if other = id then x.known.elim x fun v => (x.demote (v.unassign now).1).unwatch else x
  | (_, .warmUp _) => x
  | (now, .sweep) => x.sweep s.settings now

namespace Engine

variable {α : Type} [Scalar α]

omit [Scalar α] in
theorem standing_unassign {e : Engine α} (hfiled : e.Filed) (now : Int) (id other : VehicleId) :
    (e.unassign now id).2.standing other =
      if id = other then
        (e.standing id).known.elim (e.standing id) fun v =>
          ((e.standing id).demote (v.unassign now).1).unwatch
      else e.standing other := by
  rw [unassign]
  cases hv : e.vehicles[id]? with
  | none =>
    have hknown : (e.standing id).known = none := hv
    rw [hknown]
    by_cases heq : id = other
    · rw [if_pos heq, heq]
      rfl
    · rw [if_neg heq]
  | some v =>
    have hid : (v.unassign now).1.id = id := hfiled id v hv
    have hknown : (e.standing id).known = some v := hv
    rw [hknown]
    dsimp only
    rw [standing_unwatch, standing_afterDemotion_keep, hid]
    split
    · rename_i heq
      rw [heq]
      rfl
    · rfl

/-- A call does to every standing what it does to that standing alone. -/
theorem standing_perform {e : Engine α} (hfiled : e.Filed) (call : Int × Call α)
    (id : VehicleId) :
    (e.perform call).standing id = (e.standing id).perform e.timetable e.statistics id call := by
  obtain ⟨now, call⟩ := call
  cases call with
  | report m =>
    have htake := (e.take_effect hfiled now m).2
    rw [perform, Standing.perform]
    split
    · rename_i heq
      subst heq
      exact htake.standing_eq
    · rename_i hne
      exact htake.others id hne
  | unassign other =>
    rw [perform, Standing.perform, standing_unassign hfiled]
    split
    · rename_i heq
      rw [heq]
    · rfl
  | warmUp history => rfl
  | sweep => exact standing_sweep hfiled now id

/-- What every call makes of the standing of a vehicle keeps a property of it. -/
theorem performAll_standing_induction {settings : Settings α} {t : Timetable α}
    {P : VehicleId → Standing α → Prop}
    (hperform : ∀ {id : VehicleId} {x : Standing α} {s : Statistics α} (call : Int × Call α),
      (∀ v, x.known = some v → v.id = id) → s.settings = settings → P id x →
        P id (x.perform t s id call))
    {e : Engine α} (hfiled : e.Filed) (hsettings : e.settings = settings)
    (htimetable : e.timetable = t) (he : ∀ id, P id (e.standing id))
    (calls : List (Int × Call α)) (id : VehicleId) : P id ((e.performAll calls).standing id) := by
  induction calls generalizing e with
  | nil => exact he id
  | cons call rest ih =>
    have hone : e.performAll [call] = e.perform call := rfl
    refine ih (hone ▸ hfiled.performAll [call]) ?_ ((e.timetable_perform call).trans htimetable) ?_
    · rw [← hone, settings_performAll hfiled, hsettings]
    · intro other
      rw [standing_perform hfiled]
      exact htimetable ▸ hperform call (hfiled other) hsettings (he other)

end Engine

end NextStop
