import NextStop.Engine.Report
import NextStop.Engine.Sweep
import NextStop.Proofs.Engine.Yield

/-!
# Calls to an engine

An engine is changed from outside by four kinds of calls: reports, unassignments, warm starts and
sweeps, each at a reading of the clock. What holds before any call and is kept by each of them
holds after every run, `Engine.performAll_induction`; and what every single sweep keeps is kept by
a sweep of all watched vehicles.

Most steps of the engine touch only part of its state. The lemmas `publish_eq`, `runCycle_eq` and
so on name that part once, so that no proof has to look into a step to know what it leaves alone.
-/

namespace NextStop

namespace Engine

/-- What may be done to an engine from outside. -/
inductive Call (α : Type) where
  | report (m : MatchedReport α)
  | unassign (id : VehicleId)
  | warmUp (history : List StopEvent)
  | sweep

variable {α : Type}

/-! ## Which part of the state a step touches -/

/-- Publishing touches the public map only. -/
theorem publish_eq (e : Engine α) (v : Vehicle α) :
    ∃ live, e.publish v = { e with live := live } := by
  rw [publish]
  split
  · exact ⟨_, rfl⟩
  · exact ⟨e.live, rfl⟩

theorem timetable_publish (e : Engine α) (v : Vehicle α) :
    (e.publish v).timetable = e.timetable := by
  obtain ⟨live, hlive⟩ := e.publish_eq v
  rw [hlive]

theorem statistics_publish (e : Engine α) (v : Vehicle α) :
    (e.publish v).statistics = e.statistics := by
  obtain ⟨live, hlive⟩ := e.publish_eq v
  rw [hlive]

theorem journal_publish (e : Engine α) (v : Vehicle α) :
    (e.publish v).journal = e.journal := by
  obtain ⟨live, hlive⟩ := e.publish_eq v
  rw [hlive]

theorem board_publish (e : Engine α) (v : Vehicle α) : (e.publish v).board = e.board := by
  obtain ⟨live, hlive⟩ := e.publish_eq v
  rw [hlive]

/-- A demotion takes the predictions of the vehicle off the board, besides what goes on record
and to the public. -/
theorem afterDemotion_eq (e : Engine α) (v : Vehicle α) (event : StatusEvent) :
    ∃ live, e.afterDemotion v event = { e with
      board := e.board.remove v.id
      journal := e.journal.append (.status event)
      live := live } := by
  obtain ⟨live, hlive⟩ :=
    publish_eq (({ e with board := e.board.remove v.id } : Engine α).record (.status event)) v
  exact ⟨live, hlive⟩

/-- A change of status touches the journal only. -/
theorem recordChange_eq (e : Engine α) (event : Option StatusEvent) :
    ∃ journal, e.recordChange event = { e with journal := journal } := by
  cases event with
  | none => exact ⟨e.journal, rfl⟩
  | some ev => exact ⟨e.journal.append (.status ev), rfl⟩

variable [Scalar α]

/-- A cycle touches, of the vehicle, the wait stop, predictions and headway, and of the engine
also what is on record and public. -/
theorem runCycle_eq (e : Engine α) (now : Int) (v : Vehicle α) (f : Fix α) :
    ∃ waiting predictions headway statistics journal board live,
      (e.runCycle now v f).2 =
        ({ v with atWaitStop := waiting, predictions := predictions, headway := headway },
          { e with statistics := statistics, journal := journal, board := board, live := live }) ∧
      (board = e.board.replace v.id predictions ∨
        board = e.board ∧ predictions = v.predictions ∧ headway = v.headway) := by
  obtain ⟨live, hlive⟩ := publish_eq
    ({ e with
      statistics := e.statistics.changeAll now (Yield.changes e.statistics now v f)
      journal := e.journal.appendAll (Yield.records e.statistics now v f)
      board := if e.settings.stopEventsOnly then e.board
        else e.board.replace v.id (Yield.predictions e.statistics now v f) } : Engine α)
    (Yield.vehicle e.statistics now v f)
  rw [runCycle_eq_yield, hlive]
  refine ⟨_, _, _, _, _, _, live, rfl, ?_⟩
  rw [settings]
  split
  · exact Or.inr ⟨rfl, rfl, rfl⟩
  · exact Or.inl rfl

/-- A vehicle whose latest report was placed and leads its consist goes through a cycle, unless
its trip does not have the stop path that it was placed on. -/
theorem processVehicle_of_placed (e : Engine α) (now : Int) {v : Vehicle α} {f : Fix α}
    (hpredictable : v.predictable = true) (hreport : v.lastReport = some f.report)
    (hplacement : v.placement = some f.placement) (htrip : v.trip = some f.trip)
    (hlead : f.report.inConsist = false) :
    e.processVehicle now v =
      if f.trip.stopPath? f.placement.index = none then
        (.error (.stopPathOutOfRange f.trip.id f.placement.index f.trip.stopPaths.length), v, e)
      else (.ok (e.runCycle now v f).1, (e.runCycle now v f).2) := by
  rw [processVehicle]
  simp [hpredictable, hreport, hplacement, htrip, hlead]

/-- A report is processed only for a predictable vehicle with a report and a placement within its
trip that is not coupled; in all other cases nothing changes. -/
theorem processVehicle_cases (e : Engine α) (now : Int) (v : Vehicle α) :
    (∃ error, e.processVehicle now v = (.error error, v, e)) ∨
      e.processVehicle now v = (.ok .nothing, v, e) ∨
      ∃ f : Fix α, v.predictable = true ∧ v.lastReport = some f.report ∧
        v.placement = some f.placement ∧ v.trip = some f.trip ∧
        (f.trip.stopPath? f.placement.index).isSome = true ∧
        e.processVehicle now v = (.ok (e.runCycle now v f).1, (e.runCycle now v f).2) := by
  rw [processVehicle]
  split
  · exact Or.inl ⟨_, rfl⟩
  · rename_i hpredictable
    split
    · rename_i report placement trip hreport hplacement htrip
      split
      · exact Or.inr (Or.inl rfl)
      · split
        · exact Or.inl ⟨_, rfl⟩
        · rename_i hinside
          refine Or.inr (Or.inr ⟨⟨report, placement, trip⟩, by simpa using hpredictable, hreport,
            hplacement, htrip, ?_, rfl⟩)
          rwa [Bool.not_eq_true, Option.isNone_eq_false_iff] at hinside
    · exact Or.inl ⟨_, rfl⟩

/-- What a report comes to: it leads to nothing, it cannot be placed, its trip is unknown, its
stop path is, or it goes through a cycle. -/
theorem take_cases (e : Engine α) (now : Int) (m : MatchedReport α) :
    (m.report.inConsist = true ∧ e.take now m = (.ok .nothing, e)) ∨
    (m.report.inConsist = false ∧ m.placement = none ∧
      e.take now m = (.ok .nothing, e.takeUnplaced m.report)) ∨
    (∃ p, m.report.inConsist = false ∧ m.placement = some p ∧ e.timetable.trip? p.trip = none ∧
      e.take now m = (.error (.unknownTrip p.trip), e)) ∨
    ∃ p t, m.report.inConsist = false ∧ m.placement = some p ∧
      e.timetable.trip? p.trip = some t ∧
      e.take now m = e.takePlaced now m.report p t m.scheduleBased := by
  rw [take]
  split
  · rename_i hcoupled
    exact Or.inl ⟨hcoupled, rfl⟩
  · rename_i hlead
    rw [Bool.not_eq_true] at hlead
    split
    · rename_i hp
      exact Or.inr (Or.inl ⟨hlead, hp, rfl⟩)
    · rename_i p hp
      split
      · rename_i ht
        exact Or.inr (Or.inr (Or.inl ⟨p, hlead, hp, ht, rfl⟩))
      · rename_i t ht
        exact Or.inr (Or.inr (Or.inr ⟨p, t, hlead, hp, ht, rfl⟩))

/-! ## Runs of calls -/

/-- The engine after a call at a reading of the clock. -/
def perform (e : Engine α) : Int × Call α → Engine α
  | (now, .report m) => (e.take now m).2
  | (now, .unassign id) => (e.unassign now id).2
  | (now, .warmUp history) => e.warmUp now history
  | (now, .sweep) => (e.sweep now).2

/-- The engine after a run of calls. -/
def performAll (e : Engine α) (calls : List (Int × Call α)) : Engine α := calls.foldl perform e

theorem performAll_append (e : Engine α) (calls later : List (Int × Call α)) :
    e.performAll (calls ++ later) = (e.performAll calls).performAll later :=
  List.foldl_append

theorem performAll_induction {P : Engine α → Prop} (hstep : ∀ e call, P e → P (e.perform call))
    {e : Engine α} (he : P e) (calls : List (Int × Call α)) : P (e.performAll calls) := by
  induction calls generalizing e with
  | nil => exact he
  | cons call rest ih => exact ih (hstep e call he)

theorem sweepAll_induction {P : Engine α → Prop} {now : Int}
    (hstep : ∀ e id watched, P e → P (e.sweepOne now id watched).2)
    (watched : List (VehicleId × Int)) {e : Engine α} (he : P e) :
    P (sweepAll now watched e).2 := by
  induction watched generalizing e with
  | nil => exact he
  | cons w rest ih =>
    rw [sweepAll]
    exact ih (hstep e w.1 w.2 he)

/-! ## Timetable and statistics -/

/-- Engines that work with the same timetable and statistics. -/
structure SameBasis (e e' : Engine α) : Prop where
  timetable : e'.timetable = e.timetable
  statistics : e'.statistics = e.statistics

section

omit [Scalar α]

theorem SameBasis.refl (e : Engine α) : e.SameBasis e := ⟨rfl, rfl⟩

theorem SameBasis.trans {e e' e'' : Engine α} (h : e.SameBasis e') (h' : e'.SameBasis e'') :
    e.SameBasis e'' :=
  ⟨h'.timetable.trans h.timetable, h'.statistics.trans h.statistics⟩

theorem SameBasis.settings {e e' : Engine α} (h : e.SameBasis e') : e'.settings = e.settings :=
  congrArg Statistics.settings h.statistics

theorem sameBasis_afterDemotion (e : Engine α) (v : Vehicle α) (event : StatusEvent) :
    e.SameBasis (e.afterDemotion v event) := by
  obtain ⟨live, hdemote⟩ := e.afterDemotion_eq v event
  rw [hdemote]
  exact ⟨rfl, rfl⟩

theorem sameBasis_unassign (e : Engine α) (now : Int) (id : VehicleId) :
    e.SameBasis (e.unassign now id).2 := by
  rw [unassign]
  split
  · exact .refl e
  · exact (e.sameBasis_afterDemotion _ _).trans ⟨rfl, rfl⟩

theorem sameBasis_timeOut (e : Engine α) (now : Int) (v : Vehicle α) (cause : TimeoutCause) :
    e.SameBasis (e.timeOut now v cause).2 := by
  rw [timeOut]
  dsimp only
  split <;> exact (e.sameBasis_afterDemotion _ _).trans ⟨rfl, rfl⟩

end

theorem sameBasis_sweepOne (e : Engine α) (now : Int) (id : VehicleId) (watched : Int) :
    e.SameBasis (e.sweepOne now id watched).2 := by
  rw [sweepOne]
  split
  · exact ⟨rfl, rfl⟩
  · dsimp only
    split
    · exact ⟨rfl, rfl⟩
    · exact ⟨rfl, rfl⟩
    · exact ⟨rfl, rfl⟩
    · exact e.sameBasis_timeOut now _ _

/-- A sweep leaves timetable and statistics alone. -/
theorem sameBasis_sweep (e : Engine α) (now : Int) : e.SameBasis (e.sweep now).2 :=
  sweepAll_induction (fun e' id watched h => h.trans (e'.sameBasis_sweepOne now id watched))
    e.watch.toList (.refl e)

/-! ## The timetable stays -/

omit [Scalar α] in
theorem timetable_recordChange (e : Engine α) (event : Option StatusEvent) :
    (e.recordChange event).timetable = e.timetable := by
  obtain ⟨journal, hrecord⟩ := e.recordChange_eq event
  rw [hrecord]

theorem timetable_processVehicle (e : Engine α) (now : Int) (v : Vehicle α) :
    (e.processVehicle now v).2.2.timetable = e.timetable := by
  rcases e.processVehicle_cases now v with ⟨_, h⟩ | h | ⟨f, -, -, -, -, -, h⟩
  · rw [h]
  · rw [h]
  · obtain ⟨_, _, _, _, _, _, _, hrun, -⟩ := e.runCycle_eq now v f
    rw [h, hrun]

theorem timetable_take (e : Engine α) (now : Int) (m : MatchedReport α) :
    (e.take now m).2.timetable = e.timetable := by
  rcases e.take_cases now m with
    ⟨-, htake⟩ | ⟨-, -, htake⟩ | ⟨p, -, -, -, htake⟩ | ⟨p, t, -, -, -, htake⟩
  · rw [htake]
  · rw [htake, takeUnplaced]
    dsimp only
    split
    · exact (e.sameBasis_afterDemotion _ _).timetable
    · rfl
  · rw [htake]
  · rw [htake, takePlaced]
    exact (timetable_processVehicle _ now _).trans (e.timetable_recordChange _)

theorem timetable_perform (e : Engine α) (call : Int × Call α) :
    (e.perform call).timetable = e.timetable := by
  obtain ⟨now, call⟩ := call
  cases call with
  | report m => exact e.timetable_take now m
  | unassign id => exact (e.sameBasis_unassign now id).timetable
  | warmUp history => rfl
  | sweep => exact (e.sameBasis_sweep now).timetable

theorem timetable_performAll (e : Engine α) (calls : List (Int × Call α)) :
    (e.performAll calls).timetable = e.timetable :=
  performAll_induction (P := fun e' => e'.timetable = e.timetable)
    (fun e' call h => (e'.timetable_perform call).trans h) rfl calls

end Engine

end NextStop
