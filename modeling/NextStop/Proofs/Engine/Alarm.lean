import NextStop.Proofs.Engine.Calls

/-!
# The alarm stands apart

The alarm for a full queue tells the operator something and the engine nothing: no call looks at
it or changes it, so that every call commutes with a change of the alarm. The lemmas go through
the steps of a call, and `Engine.performAll_withAlarm` says it for runs.
-/

namespace NextStop

namespace Engine

variable {α : Type}

/-- The engine with another alarm. -/
def withAlarm (e : Engine α) (a : FillAlarm α) : Engine α := { e with alarm := a }

section

variable (e : Engine α) (a : FillAlarm α)

theorem publish_withAlarm (v : Vehicle α) :
    (e.withAlarm a).publish v = (e.publish v).withAlarm a := by
  rw [publish, publish]
  split <;> rfl

theorem afterDemotion_withAlarm (v : Vehicle α) (event : StatusEvent) :
    (e.withAlarm a).afterDemotion v event = (e.afterDemotion v event).withAlarm a := by
  rw [afterDemotion, afterDemotion, ← publish_withAlarm]
  rfl

theorem recordChange_withAlarm (event : Option StatusEvent) :
    (e.withAlarm a).recordChange event = (e.recordChange event).withAlarm a := by
  cases event <;> rfl

theorem foldl_withAlarm {β : Type} {f : Engine α → β → Engine α}
    (hstep : ∀ (e : Engine α) x, f (e.withAlarm a) x = (f e x).withAlarm a) (xs : List β) :
    xs.foldl f (e.withAlarm a) = (xs.foldl f e).withAlarm a :=
  List.foldl_hom (withAlarm · a) hstep

variable [Scalar α]

theorem runCycle_withAlarm (now : Int) (v : Vehicle α) (f : Fix α) :
    (e.withAlarm a).runCycle now v f = ((e.runCycle now v f).1, (e.runCycle now v f).2.1,
      (e.runCycle now v f).2.2.withAlarm a) := by
  rw [runCycle_eq_yield, runCycle_eq_yield, ← publish_withAlarm]
  rfl

theorem processVehicle_withAlarm (now : Int) (v : Vehicle α) :
    (e.withAlarm a).processVehicle now v = ((e.processVehicle now v).1,
      (e.processVehicle now v).2.1, (e.processVehicle now v).2.2.withAlarm a) := by
  rw [processVehicle, processVehicle]
  split
  · rfl
  · split
    · split
      · rfl
      · split
        · rfl
        · rw [runCycle_withAlarm]
    · rfl

theorem takePlaced_withAlarm (now : Int) (r : Report α) (p : Placement α) (t : Trip α)
    (scheduleBased : Bool) : (e.withAlarm a).takePlaced now r p t scheduleBased =
      ((e.takePlaced now r p t scheduleBased).1,
        (e.takePlaced now r p t scheduleBased).2.withAlarm a) := by
  have hvehicle : (e.withAlarm a).vehicle r.vehicle = e.vehicle r.vehicle := rfl
  rw [takePlaced, takePlaced, hvehicle]
  dsimp only
  rw [recordChange_withAlarm, processVehicle_withAlarm]
  rfl

omit [Scalar α] in
theorem takeUnplaced_withAlarm (r : Report α) :
    (e.withAlarm a).takeUnplaced r = (e.takeUnplaced r).withAlarm a := by
  have hvehicle : (e.withAlarm a).vehicle r.vehicle = e.vehicle r.vehicle := rfl
  rw [takeUnplaced, takeUnplaced, hvehicle]
  dsimp only
  split
  · rw [afterDemotion_withAlarm]
    rfl
  · rfl

theorem take_withAlarm (now : Int) (m : MatchedReport α) :
    (e.withAlarm a).take now m = ((e.take now m).1, (e.take now m).2.withAlarm a) := by
  have htimetable : (e.withAlarm a).timetable = e.timetable := rfl
  rw [take, take, htimetable]
  split
  · rfl
  · split
    · rw [takeUnplaced_withAlarm]
    · split
      · rfl
      · rw [takePlaced_withAlarm]

omit [Scalar α] in
theorem unassign_withAlarm (now : Int) (id : VehicleId) :
    (e.withAlarm a).unassign now id =
      ((e.unassign now id).1, (e.unassign now id).2.withAlarm a) := by
  have hvehicles : (e.withAlarm a).vehicles = e.vehicles := rfl
  rw [unassign, unassign, hvehicles]
  split
  · rfl
  · dsimp only
    rw [afterDemotion_withAlarm]
    rfl

omit [Scalar α] in
theorem timeOut_withAlarm (now : Int) (v : Vehicle α) (cause : TimeoutCause) :
    (e.withAlarm a).timeOut now v cause =
      ((e.timeOut now v cause).1, (e.timeOut now v cause).2.withAlarm a) := by
  have hunpublish : ∀ (e : Engine α) (id : VehicleId),
      (if (e.withAlarm a).settings.dropTimedOut = true then (e.withAlarm a).unpublish id
        else e.withAlarm a) =
      (if e.settings.dropTimedOut = true then e.unpublish id else e).withAlarm a := by
    intro e id
    have hsettings : (e.withAlarm a).settings = e.settings := rfl
    rw [hsettings]
    split <;> rfl
  rw [timeOut, timeOut]
  dsimp only
  rw [afterDemotion_withAlarm, ← hunpublish]
  rfl

theorem sweepOne_withAlarm (now : Int) (id : VehicleId) (watched : Int) :
    (e.withAlarm a).sweepOne now id watched =
      ((e.sweepOne now id watched).1, (e.sweepOne now id watched).2.withAlarm a) := by
  have hvehicles : (e.withAlarm a).vehicles = e.vehicles := rfl
  have hsettings : (e.withAlarm a).settings = e.settings := rfl
  rw [sweepOne, sweepOne, hvehicles, hsettings]
  split
  · rfl
  · dsimp only
    split
    · rfl
    · rfl
    · rfl
    · rw [timeOut_withAlarm]

theorem sweepAll_withAlarm (now : Int) (watched : List (VehicleId × Int)) :
    sweepAll now watched (e.withAlarm a) =
      ((sweepAll now watched e).1, (sweepAll now watched e).2.withAlarm a) := by
  induction watched generalizing e with
  | nil => rfl
  | cons w rest ih =>
    rw [sweepAll, sweepAll, sweepOne_withAlarm]
    dsimp only
    rw [ih]

theorem perform_withAlarm (call : Int × Call α) :
    (e.withAlarm a).perform call = (e.perform call).withAlarm a := by
  obtain ⟨now, call⟩ := call
  cases call with
  | report m => exact congrArg Prod.snd (e.take_withAlarm a now m)
  | unassign id => exact congrArg Prod.snd (e.unassign_withAlarm a now id)
  | warmUp history => rfl
  | sweep => exact congrArg Prod.snd (e.sweepAll_withAlarm a now e.watch.toList)

/-- A run of calls does the same whatever the alarm is. -/
theorem performAll_withAlarm (calls : List (Int × Call α)) :
    (e.withAlarm a).performAll calls = (e.performAll calls).withAlarm a :=
  e.foldl_withAlarm a (fun e call => e.perform_withAlarm a call) calls

end

end Engine

end NextStop
