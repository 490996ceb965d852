import NextStop.Proofs.Engine.Coherence
import NextStop.Proofs.Engine.Histories
import NextStop.Proofs.Engine.Standing

/-!
# Steps

Every call to an engine is made of steps, `Engine.Step`, and every step concerns one vehicle: its
standing changes in one of the ways that `Move` lists, those of all others stay, and the changes
of status that the move brings go on record. What is true of a fleet after any run of calls is
proved by looking at the moves, `Engine.performAll_step_induction`.
-/

namespace NextStop

/-- What may become of the standing of a vehicle in one step, with the changes of status that go
on record. -/
inductive Move {α : Type} [Scalar α] (s : Settings α) (id : VehicleId) (x : Standing α) :
    List StatusEvent → Standing α → Prop
  | rest : Move s id x [] x
  /-- A report is placed on a stop path that the trip does not have. -/
  | rejected (r : Report α) (p : Placement α) (t : Trip α) (scheduleBased : Bool)
      (hout : t.stopPath? p.index = none) :
      Move s id x ((x.vehicle id).place r p t).2.toList
        ((x.keep { ((x.vehicle id).place r p t).1 with
          scheduleBased := scheduleBased }).hear r.time)
  /-- A report is placed and goes through a cycle, which may leave the predictions alone. -/
  | processed (r : Report α) (p : Placement α) (t : Trip α) (scheduleBased : Bool)
      (v : Vehicle α) (predictions listed : List Prediction) (headway : Option Headway)
      (hon : (t.stopPath? p.index).isSome = true)
      (hv : v = { ((x.vehicle id).place r p t).1 with
        scheduleBased := scheduleBased
        atWaitStop := Engine.Fix.waits s ⟨r, p, t⟩
        predictions := predictions
        headway := headway })
      (hlisted : listed = predictions ∨ listed = x.listed ∧
        predictions = (x.vehicle id).predictions ∧ headway = (x.vehicle id).headway) :
      Move s id x ((x.vehicle id).place r p t).2.toList
        ((({ x with listed := listed }.publish v).keep v).hear r.time)
  /-- A report of a vehicle that is not predictable cannot be placed. -/
  | unplaced (r : Report α) (hidle : (x.vehicle id).predictable = false) :
      Move s id x [] ((x.keep { x.vehicle id with lastReport := some r }).hear r.time)
  /-- A report of a predictable vehicle cannot be placed. -/
  | misplaced (r : Report α) (v : Vehicle α) (event : StatusEvent)
      (hpredictable : (x.vehicle id).predictable = true)
      (hdemote : Vehicle.demote { x.vehicle id with lastReport := some r } .noMatch
        "No match for AVL report" r.time = (v, event)) :
      Move s id x [event] ((x.demote v).hear r.time)
  | unassigned (now : Int) (v : Vehicle α) (hknown : x.known = some v) :
      Move s id x [(v.unassign now).2] (x.demote (v.unassign now).1).unwatch
  | swept (now : Int) : Move s id x (x.timeoutEvent? s now).toList (x.sweep s now)

/-- No move renames the vehicle. -/
theorem Move.id_of_known {α : Type} [Scalar α] {s : Settings α} {id : VehicleId}
    {x : Standing α} {events : List StatusEvent} {y : Standing α} (h : Move s id x events y)
    (hx : ∀ v, x.known = some v → v.id = id) : ∀ v, y.known = some v → v.id = id := by
  have hid := x.vehicle_id hx
  have hplace : ∀ r p t, ((x.vehicle id).place r p t).1.id = id := by
    intro r p t
    obtain ⟨lastEvent, hplaced⟩ := (x.vehicle id).place_eq r p t
    rw [hplaced, hid]
  intro v hv
  cases h with
  | rest => exact hx v hv
  | rejected r p t scheduleBased hout =>
    obtain rfl := Option.some.inj hv
    exact hplace r p t
  | processed r p t scheduleBased w predictions listed headway hon hw hlisted =>
    obtain rfl := Option.some.inj hv
    rw [hw]
    exact hplace r p t
  | unplaced r hidle =>
    obtain rfl := Option.some.inj hv
    exact hid
  | misplaced r w event hpredictable hdemote =>
    obtain rfl := Option.some.inj hv
    rw [← hid]
    exact (congrArg (fun d => d.1.id) hdemote).symm
  | unassigned now w hknown =>
    obtain rfl := Option.some.inj hv
    exact hx w hknown
  | swept now =>
    rcases Standing.known_sweep s now x with ⟨-, hsame⟩ | ⟨w, cause, -, hw, -, hdemoted⟩
    · exact hx v (hsame ▸ hv)
    · rw [hdemoted] at hv
      obtain rfl := Option.some.inj hv
      exact hx w hw

/-- The only change of status that a placement brings is that the vehicle becomes predictable. -/
theorem Vehicle.place_event {α : Type} {v : Vehicle α} {r : Report α} {p : Placement α}
    {t : Trip α} {ev : StatusEvent} (h : (v.place r p t).2 = some ev) :
    ev.kind = .predictable ∧ ev.vehicle = v.id := by
  cases hbefore : v.predictable with
  | true => simp [Vehicle.place, hbefore] at h
  | false =>
    simp only [Vehicle.place, hbefore, Bool.false_eq_true, if_false, Option.some.injEq] at h
    rw [← h]
    exact ⟨rfl, rfl⟩

/-- A report that cannot be placed changes the status of its vehicle for that reason. -/
theorem Vehicle.misplace_event {α : Type} {v : Vehicle α} {r : Report α} {ev : StatusEvent}
    (h : (v.misplace r).2 = some ev) : ev.kind = .noMatch ∧ ev.vehicle = v.id := by
  rcases v.misplace_cases r with ⟨demoted, event, hmisplace, hdemote⟩ | hmisplace
  · rw [hmisplace] at h
    obtain rfl := Option.some.inj h
    have hevent := (congrArg Prod.snd hdemote).symm
    exact ⟨congrArg StatusEvent.kind hevent, congrArg StatusEvent.vehicle hevent⟩
  · rw [hmisplace] at h
    contradiction

namespace Engine

variable {α : Type} [Scalar α]

/-- One vehicle makes a move. -/
structure Step (e : Engine α) (id : VehicleId) (events : List StatusEvent) (e' : Engine α) :
    Prop where
  settings_eq : e'.settings = e.settings
  move : Move e.settings id (e.standing id) events (e'.standing id)
  others : ∀ other, id ≠ other → e'.standing other = e.standing other
  recorded : ∃ records, e'.journal = e.journal.appendAll records ∧
    records.filterMap Record.status? = events
  sound : e.board.Sound → e'.board.Sound

/-! ## The steps of calls -/

theorem Step.rest (e : Engine α) (id : VehicleId) : e.Step id [] e where
  settings_eq := rfl
  move := .rest
  others _ _ := rfl
  recorded := ⟨[], rfl, rfl⟩
  sound h := h

theorem step_warmUp (e : Engine α) (now : Int) (history : List StopEvent) (id : VehicleId) :
    e.Step id [] (e.warmUp now history) where
  settings_eq := Statistics.feed_settings e.statistics now _
  move := .rest
  others _ _ := rfl
  recorded := ⟨[], rfl, rfl⟩
  sound h := h

omit [Scalar α] in
theorem journal_recordChange (e : Engine α) (event : Option StatusEvent) :
    (e.recordChange event).journal = e.journal.appendAll (event.toList.map .status) := by
  cases event <;> rfl

omit [Scalar α] in
theorem status?_toList (event : Option StatusEvent) :
    (event.toList.map (.status : StatusEvent → Record α)).filterMap Record.status? =
      event.toList := by
  cases event <;> rfl

omit [Scalar α] in
theorem sound_afterDemotion {e : Engine α} (h : e.board.Sound) (v : Vehicle α)
    (event : StatusEvent) : (e.afterDemotion v event).board.Sound := by
  obtain ⟨live, hdemote⟩ := e.afterDemotion_eq v event
  rw [hdemote]
  exact h.replace v.id []

omit [Scalar α] in
theorem journal_afterDemotion (e : Engine α) (v : Vehicle α) (event : StatusEvent) :
    (e.afterDemotion v event).journal = e.journal.append (.status event) := by
  obtain ⟨live, hdemote⟩ := e.afterDemotion_eq v event
  rw [hdemote]

theorem step_unassign {e : Engine α} (hfiled : e.Filed) (now : Int) (id : VehicleId) :
    ∃ events, e.Step id events (e.unassign now id).2 := by
  rw [unassign]
  cases hv : e.vehicles[id]? with
  | none => exact ⟨[], .rest e id⟩
  | some v =>
    have hid : (v.unassign now).1.id = id := hfiled id v hv
    have hstanding : ∀ other, ((((e.afterDemotion (v.unassign now).1 (v.unassign now).2).keep
        (v.unassign now).1).unwatch id).standing other) =
        if id = other then ((e.standing other).demote (v.unassign now).1).unwatch
        else e.standing other := by
      intro other
      rw [standing_unwatch, standing_afterDemotion_keep, hid]
      split <;> rfl
    dsimp only
    refine ⟨[(v.unassign now).2], (e.sameBasis_afterDemotion _ _).settings, ?_, ?_, ?_, ?_⟩
    · rw [hstanding, if_pos rfl]
      exact .unassigned now v hv
    · intro other hne
      exact (hstanding other).trans (if_neg hne)
    · exact ⟨[.status (v.unassign now).2], e.journal_afterDemotion _ _, rfl⟩
    · exact fun h => sound_afterDemotion h _ _

/-- The sweep of one vehicle puts its event on record. -/
theorem journal_sweepOne (e : Engine α) (now : Int) (id : VehicleId) (watched : Int) :
    (e.sweepOne now id watched).2.journal =
      e.journal.appendAll ((e.sweepOne now id watched).1.toList.map .status) := by
  rw [sweepOne]
  split
  · rfl
  · dsimp only
    split
    · rfl
    · rfl
    · rfl
    · rw [timeOut]
      dsimp only
      split <;> exact e.journal_afterDemotion _ _

theorem step_sweepOne {e : Engine α} (hfiled : e.Filed) (now : Int) {id : VehicleId}
    {watched : Int} (hw : e.watch[id]? = some watched) :
    e.Step id ((e.standing id).timeoutEvent? e.settings now).toList
      (e.sweepOne now id watched).2 where
  settings_eq := (e.sameBasis_sweepOne now id watched).settings
  move := by
    rw [standing_sweepOne hfiled now hw, if_pos rfl]
    exact .swept now
  others other hne := by
    rw [standing_sweepOne hfiled now hw, if_neg hne]
  recorded := by
    rw [← event_sweepOne e now hw]
    exact ⟨_, e.journal_sweepOne now id watched, status?_toList _⟩
  sound h := by
    rw [sweepOne]
    split
    · exact h
    · dsimp only
      split
      · exact h
      · exact h
      · exact h
      · rw [timeOut]
        dsimp only
        split <;> exact sound_afterDemotion h _ _

omit [Scalar α] in
/-- The vehicle of a report is kept before it is watched. -/
theorem standing_keep_watchFrom (e : Engine α) {v : Vehicle α} {id : VehicleId} (hid : v.id = id)
    (time : Int) (other : VehicleId) :
    ((e.keep v).watchFrom id time).standing other =
      if id = other then ((e.standing other).keep v).hear time else e.standing other := by
  rw [standing_watchFrom, standing_keep, hid]
  split <;> rfl

theorem step_takeUnplaced {e : Engine α} (hfiled : e.Filed) (r : Report α) :
    ∃ events, e.Step r.vehicle events (e.takeUnplaced r) := by
  have hid : (e.vehicle r.vehicle).id = r.vehicle := hfiled.vehicle_id r.vehicle
  rw [takeUnplaced]
  cases hpredictable : (e.vehicle r.vehicle).predictable with
  | false =>
    have hmisplace : (e.vehicle r.vehicle).misplace r =
        ({ e.vehicle r.vehicle with lastReport := some r }, none) := by
      simp [Vehicle.misplace, hpredictable]
    have hstanding := e.standing_keep_watchFrom
      (show ({ e.vehicle r.vehicle with lastReport := some r } : Vehicle α).id = r.vehicle from hid)
      r.time
    rw [hmisplace]
    refine ⟨[], rfl, ?_, fun other hne => (hstanding other).trans (if_neg hne), ⟨[], rfl, rfl⟩,
      fun h => h⟩
    dsimp only
    rw [hstanding, if_pos rfl]
    exact .unplaced r hpredictable
  | true =>
    obtain ⟨v, event, hdemote⟩ : ∃ v event, Vehicle.demote
        { e.vehicle r.vehicle with lastReport := some r } .noMatch "No match for AVL report"
          r.time = (v, event) := ⟨_, _, rfl⟩
    have hmisplace : (e.vehicle r.vehicle).misplace r = (v, some event) := by
      rw [Vehicle.misplace]
      dsimp only
      rw [if_pos hpredictable, hdemote]
    have hvid : v.id = r.vehicle := by
      rw [← hid]
      exact (congrArg (fun d => d.1.id) hdemote).symm
    have hstanding : ∀ other,
        ((((e.afterDemotion v event).keep v).watchFrom r.vehicle r.time).standing other) =
          if r.vehicle = other then ((e.standing other).demote v).hear r.time
          else e.standing other := by
      intro other
      rw [standing_watchFrom, standing_afterDemotion_keep, hvid]
      split <;> rfl
    rw [hmisplace]
    refine ⟨[event], (e.sameBasis_afterDemotion v event).settings, ?_,
      fun other hne => (hstanding other).trans (if_neg hne),
      ⟨[.status event], e.journal_afterDemotion v event, rfl⟩,
      fun h => sound_afterDemotion h v event⟩
    dsimp only
    rw [hstanding, if_pos rfl]
    exact .misplaced r v event hpredictable hdemote

omit [Scalar α] in
theorem standing_recordChange (e : Engine α) (event : Option StatusEvent) (id : VehicleId) :
    (e.recordChange event).standing id = e.standing id := by
  cases event <;> rfl

omit [Scalar α] in
theorem settings_recordChange (e : Engine α) (event : Option StatusEvent) :
    (e.recordChange event).settings = e.settings := by
  cases event <;> rfl

omit [Scalar α] in
theorem board_recordChange (e : Engine α) (event : Option StatusEvent) :
    (e.recordChange event).board = e.board := by
  cases event <;> rfl

/-- The standing of a vehicle after a cycle. -/
theorem standing_yield (e : Engine α) (now : Int) (v : Vehicle α) (f : Fix α)
    (other : VehicleId) :
    (e.runCycle now v f).2.2.standing other =
      if v.id = other then
        { e.standing other with
          listed := if e.settings.stopEventsOnly then (e.standing other).listed
            else Yield.predictions e.statistics now v f }.publish
          (Yield.vehicle e.statistics now v f)
      else e.standing other := by
  have hid : (Yield.vehicle e.statistics now v f).id = v.id := rfl
  rw [runCycle_eq_yield, standing_publish, hid]
  cases e.settings.stopEventsOnly with
  | true => rfl
  | false =>
    have hlisted : ({ e with
        statistics := e.statistics.changeAll now (Yield.changes e.statistics now v f)
        journal := e.journal.appendAll (Yield.records e.statistics now v f)
        board := e.board.replace v.id (Yield.predictions e.statistics now v f) } :
        Engine α).standing other = _ := e.standing_replace v.id _ other
    simp only [Bool.false_eq_true, if_false]
    rw [hlisted]
    split <;> rfl

/-- A cycle replaces the predictions of its vehicle, or leaves them alone, and shows the vehicle
to the public. -/
theorem standing_runCycle (e : Engine α) (now : Int) (v : Vehicle α) (f : Fix α) :
    ∃ v' predictions listed headway,
      v' = { v with
        atWaitStop := f.waits e.settings
        predictions := predictions
        headway := headway } ∧
      (e.runCycle now v f).2.1 = v' ∧
      (listed = predictions ∨ listed = (e.standing v.id).listed ∧
        predictions = v.predictions ∧ headway = v.headway) ∧
      (∀ id, (e.runCycle now v f).2.2.standing id =
        if v.id = id then { e.standing id with listed := listed }.publish v'
        else e.standing id) ∧
      (e.board.Sound → (e.runCycle now v f).2.2.board.Sound) := by
  refine ⟨Yield.vehicle e.statistics now v f, (Yield.vehicle e.statistics now v f).predictions,
    if e.settings.stopEventsOnly then (e.standing v.id).listed
      else Yield.predictions e.statistics now v f,
    (Yield.vehicle e.statistics now v f).headway, rfl, by rw [runCycle_eq_yield], ?_, ?_, ?_⟩
  · rw [Yield.vehicle, settings]
    split
    · exact Or.inr ⟨rfl, rfl, rfl⟩
    · exact Or.inl rfl
  · intro id
    rw [standing_yield]
    by_cases hid : v.id = id
    · rw [if_pos hid, if_pos hid, hid]
    · rw [if_neg hid, if_neg hid]
  · intro hsound
    rw [runCycle_eq_yield, board_publish]
    dsimp only
    split
    · exact hsound
    · exact hsound.replace v.id _

section Placed

/-- The vehicle of a report that is placed, as it comes to be processed. -/
def placed (e : Engine α) (r : Report α) (p : Placement α) (t : Trip α) (scheduleBased : Bool) :
    Vehicle α :=
  { ((e.vehicle r.vehicle).place r p t).1 with scheduleBased := scheduleBased }

variable {e : Engine α} (r : Report α) (p : Placement α) (t : Trip α) (scheduleBased : Bool)

omit [Scalar α] in
theorem Filed.placed_id (hfiled : e.Filed) : (e.placed r p t scheduleBased).id = r.vehicle := by
  obtain ⟨lastEvent, hplace⟩ := (e.vehicle r.vehicle).place_eq r p t
  rw [placed, hplace]
  exact hfiled.vehicle_id r.vehicle

/-- A report that is placed leads to a cycle, unless its trip does not have the stop path. -/
theorem processVehicle_placed (e : Engine α) (now : Int) (hlead : r.inConsist = false) :
    let e' := e.recordChange ((e.vehicle r.vehicle).place r p t).2
    let v := e.placed r p t scheduleBased
    let cycle := e'.runCycle now v ⟨r, p, t⟩
    e'.processVehicle now v =
      if t.stopPath? p.index = none then
        (.error (.stopPathOutOfRange t.id p.index t.stopPaths.length), v, e')
      else (.ok cycle.1, cycle.2) := by
  intro e' v cycle
  obtain ⟨lastEvent, hplace⟩ := (e.vehicle r.vehicle).place_eq r p t
  exact processVehicle_of_placed e' now (f := ⟨r, p, t⟩)
    (by simp only [v, placed, hplace]) (by simp only [v, placed, hplace])
    (by simp only [v, placed, hplace]) (by simp only [v, placed, hplace]) hlead

/-- The vehicle is kept as the cycle left it, or as it was placed, and watched from the report
on. -/
theorem takePlaced_eq (e : Engine α) (now : Int) (hlead : r.inConsist = false) :
    let e' := e.recordChange ((e.vehicle r.vehicle).place r p t).2
    let v := e.placed r p t scheduleBased
    let cycle := e'.runCycle now v ⟨r, p, t⟩
    (e.takePlaced now r p t scheduleBased).2 =
      if t.stopPath? p.index = none then (e'.keep v).watchFrom r.vehicle r.time
      else (cycle.2.2.keep cycle.2.1).watchFrom r.vehicle r.time := by
  intro e' v cycle
  have hprocessed : (e.takePlaced now r p t scheduleBased).2 =
      ((e'.processVehicle now v).2.2.keep (e'.processVehicle now v).2.1).watchFrom r.vehicle
        r.time := rfl
  rw [hprocessed, processVehicle_placed r p t scheduleBased e now hlead]
  split <;> rfl

/-- What a report that is placed is answered with. -/
theorem takePlaced_result (e : Engine α) (now : Int) (hlead : r.inConsist = false) :
    (e.takePlaced now r p t scheduleBased).1 =
      if t.stopPath? p.index = none then
        .error (.stopPathOutOfRange t.id p.index t.stopPaths.length)
      else .ok ((e.recordChange ((e.vehicle r.vehicle).place r p t).2).runCycle now
        (e.placed r p t scheduleBased) ⟨r, p, t⟩).1 := by
  have hprocessed : (e.takePlaced now r p t scheduleBased).1 =
      ((e.recordChange ((e.vehicle r.vehicle).place r p t).2).processVehicle now
        (e.placed r p t scheduleBased)).1 := rfl
  rw [hprocessed, processVehicle_placed r p t scheduleBased e now hlead]
  split <;> rfl

theorem step_rejected (hfiled : e.Filed) (hout : t.stopPath? p.index = none) :
    let event := ((e.vehicle r.vehicle).place r p t).2
    e.Step r.vehicle event.toList
      (((e.recordChange event).keep (e.placed r p t scheduleBased)).watchFrom r.vehicle r.time) := by
  intro event
  have hstanding := (e.recordChange event).standing_keep_watchFrom
    (hfiled.placed_id r p t scheduleBased) r.time
  simp only [standing_recordChange] at hstanding
  refine ⟨e.settings_recordChange event, ?_, fun other hne => (hstanding other).trans (if_neg hne),
    ⟨_, e.journal_recordChange event, status?_toList event⟩, fun h => ?_⟩
  · rw [hstanding, if_pos rfl]
    exact .rejected r p t scheduleBased hout
  · exact (e.board_recordChange event).symm ▸ h

theorem step_processed (hfiled : e.Filed) (now : Int) (hon : t.stopPath? p.index ≠ none) :
    let event := ((e.vehicle r.vehicle).place r p t).2
    let cycle := (e.recordChange event).runCycle now (e.placed r p t scheduleBased) ⟨r, p, t⟩
    e.Step r.vehicle event.toList ((cycle.2.2.keep cycle.2.1).watchFrom r.vehicle r.time) := by
  intro event cycle
  obtain ⟨lastEvent, hplace⟩ := (e.vehicle r.vehicle).place_eq r p t
  have hid := hfiled.placed_id r p t scheduleBased
  obtain ⟨w, predictions, listed, headway, hw, hrun, hlisted, hcycle, hsound⟩ :=
    (e.recordChange event).standing_runCycle now (e.placed r p t scheduleBased) ⟨r, p, t⟩
  have hstatus := Yield.filterMap_status?_records (e.recordChange event).statistics now
    (e.placed r p t scheduleBased) ⟨r, p, t⟩
  have hadvances : (e.recordChange event).Advances now cycle.2.2 :=
    (e.recordChange event).advances_runCycle (e.placed r p t scheduleBased) ⟨r, p, t⟩
  have hwid : w.id = r.vehicle := by rw [hw, hid]
  have hstanding : ∀ other, ((cycle.2.2.keep w).watchFrom r.vehicle r.time).standing other =
      if r.vehicle = other then
        (({ e.standing other with listed := listed }.publish w).keep w).hear r.time
      else e.standing other := by
    intro other
    rw [standing_keep_watchFrom _ hwid, hcycle, standing_recordChange, hid]
    split <;> rfl
  have hlistedBefore : listed = predictions ∨ listed = (e.standing r.vehicle).listed ∧
      predictions = (e.vehicle r.vehicle).predictions ∧
      headway = (e.vehicle r.vehicle).headway := by
    rwa [standing_recordChange, hid, placed, hplace] at hlisted
  rw [show cycle.2.1 = w from hrun]
  refine ⟨hadvances.settings_eq.trans (e.settings_recordChange event), ?_,
    fun other hne => (hstanding other).trans (if_neg hne),
    ⟨event.toList.map .status ++ Yield.records (e.recordChange event).statistics now
      (e.placed r p t scheduleBased) ⟨r, p, t⟩, ?_, ?_⟩, fun h => ?_⟩
  · rw [hstanding, if_pos rfl]
    refine .processed r p t scheduleBased w predictions listed headway
      (Option.isSome_iff_ne_none.mpr hon) ?_ hlistedBefore
    rw [hw, settings_recordChange]
    rfl
  · rw [Journal.appendAll_append, ← journal_recordChange]
    simp only [cycle, runCycle_eq_yield]
    exact journal_publish _ _
  · rw [List.filterMap_append, status?_toList, hstatus, List.append_nil]
  · exact hsound ((e.board_recordChange event).symm ▸ h)

theorem step_takePlaced (hfiled : e.Filed) (now : Int) (hlead : r.inConsist = false) :
    ∃ events, e.Step r.vehicle events (e.takePlaced now r p t scheduleBased).2 := by
  rw [takePlaced_eq r p t scheduleBased e now hlead]
  split
  · rename_i hout
    exact ⟨_, step_rejected r p t scheduleBased hfiled hout⟩
  · rename_i hon
    exact ⟨_, step_processed r p t scheduleBased hfiled now hon⟩

end Placed

theorem step_take {e : Engine α} (hfiled : e.Filed) (now : Int) (m : MatchedReport α) :
    ∃ events, e.Step m.report.vehicle events (e.take now m).2 := by
  rw [take]
  split
  · exact ⟨[], .rest e _⟩
  · rename_i hlead
    rw [Bool.not_eq_true] at hlead
    split
    · exact step_takeUnplaced hfiled m.report
    · split
      · exact ⟨[], .rest e _⟩
      · exact step_takePlaced m.report _ _ _ hfiled now hlead

/-! ## Runs -/

theorem Filed.step {e e' : Engine α} {id : VehicleId} {events : List StatusEvent} (h : e.Filed)
    (hstep : e.Step id events e') : e'.Filed := by
  intro other v hv
  by_cases hother : id = other
  · subst hother
    exact hstep.move.id_of_known (h id) v hv
  · have hsame := congrArg Standing.known (hstep.others other hother)
    exact h other v (hsame.symm.trans hv)

/-- What every step keeps is kept by a sweep of watched vehicles. -/
theorem sweepAll_step_induction {P : Engine α → Prop}
    (hstep : ∀ {e : Engine α} {id : VehicleId} {events : List StatusEvent} {e' : Engine α},
      e.Filed → P e → e.Step id events e' → P e')
    {e : Engine α} (hfiled : e.Filed) (he : P e) (now : Int)
    {watched : List (VehicleId × Int)} (hwatched : e.Watches watched) :
    (sweepAll now watched e).2.Filed ∧ P (sweepAll now watched e).2 := by
  induction watched generalizing e with
  | nil => exact ⟨hfiled, he⟩
  | cons w rest ih =>
    have hone := step_sweepOne hfiled now (hwatched.heard w List.mem_cons_self)
    exact ih (hfiled.step hone) (hstep hfiled he hone) (hwatched.tail hfiled now)

/-- What every step keeps is kept by every run of calls. -/
theorem performAll_step_induction {P : Engine α → Prop}
    (hstep : ∀ {e : Engine α} {id : VehicleId} {events : List StatusEvent} {e' : Engine α},
      e.Filed → P e → e.Step id events e' → P e')
    {e : Engine α} (hfiled : e.Filed) (he : P e) (calls : List (Int × Call α)) :
    (e.performAll calls).Filed ∧ P (e.performAll calls) := by
  refine performAll_induction (P := fun e => e.Filed ∧ P e) ?_ ⟨hfiled, he⟩ calls
  rintro e ⟨now, call⟩ ⟨hfiled, he⟩
  have hone : ∀ {id events e'}, e.Step id events e' → e'.Filed ∧ P e' :=
    fun h => ⟨hfiled.step h, hstep hfiled he h⟩
  cases call with
  | report m =>
    obtain ⟨events, hs⟩ := step_take hfiled now m
    exact hone hs
  | unassign id =>
    obtain ⟨events, hs⟩ := step_unassign hfiled now id
    exact hone hs
  | warmUp history => exact hone (e.step_warmUp now history "")
  | sweep => exact sweepAll_step_induction hstep hfiled he now e.watches_toList

/-- What every move of a vehicle keeps is true of the standing of every vehicle after every run of
calls. -/
theorem performAll_move_induction {s : Settings α} {P : VehicleId → Standing α → Prop}
    (hmove : ∀ {id : VehicleId} {x : Standing α} {events : List StatusEvent} {y : Standing α},
      P id x → Move s id x events y → P id y)
    {e : Engine α} (hfiled : e.Filed) (hs : e.settings = s) (he : ∀ id, P id (e.standing id))
    (calls : List (Int × Call α)) (id : VehicleId) : P id ((e.performAll calls).standing id) := by
  have hall : (e.performAll calls).Filed ∧
      (e.performAll calls).settings = s ∧ ∀ id, P id ((e.performAll calls).standing id) := by
    refine performAll_step_induction
      (P := fun e => e.settings = s ∧ ∀ id, P id (e.standing id)) ?_ hfiled ⟨hs, he⟩ calls
    rintro e moved events e' - ⟨hs, he⟩ hstep
    refine ⟨hstep.settings_eq.trans hs, ?_⟩
    intro id
    by_cases hid : moved = id
    · subst hid
      have hmoved := hstep.move
      rw [hs] at hmoved
      exact hmove (he moved) hmoved
    · rw [hstep.others id hid]
      exact he id
  exact hall.2.2 id

theorem Filed.start (settings : Settings α) (timetable : Timetable α) (journal : Journal α) :
    (Engine.start settings timetable journal).Filed := by
  intro id v hv
  rw [Engine.start, Std.TreeMap.getElem?_emptyc] at hv
  contradiction

/-- Nothing is known of any vehicle in the beginning. -/
theorem standing_start (settings : Settings α) (timetable : Timetable α) (journal : Journal α)
    (id : VehicleId) :
    (start settings timetable journal).standing id = ⟨none, none, none, []⟩ := by
  simp only [standing, start, Std.TreeMap.getElem?_emptyc, Board.forVehicle, Board.empty]
  rfl

theorem Filed.performAll {e : Engine α} (h : e.Filed) (calls : List (Int × Call α)) :
    (e.performAll calls).Filed :=
  (performAll_step_induction (P := fun _ => True) (fun _ _ _ => trivial) h trivial calls).1

theorem settings_performAll {e : Engine α} (hfiled : e.Filed) (calls : List (Int × Call α)) :
    (e.performAll calls).settings = e.settings :=
  (performAll_step_induction (P := fun e' => e'.settings = e.settings)
    (fun _ h hstep => hstep.settings_eq.trans h) hfiled rfl calls).2

/-- Every run of calls leaves the two tables of the board in agreement. -/
theorem sound_performAll (settings : Settings α) (timetable : Timetable α) (journal : Journal α)
    (calls : List (Int × Call α)) :
    ((start settings timetable journal).performAll calls).board.Sound :=
  (performAll_step_induction (P := fun e => e.board.Sound) (fun _ h hstep => hstep.sound h)
    (Filed.start settings timetable journal) Board.sound_empty calls).2

end Engine

end NextStop
