import NextStop.Proofs.Board.Shares
import NextStop.Proofs.Engine.Currency

/-!
# Bystanders

A report and an unassignment are about one vehicle. All others are bystanders: what is known of
them, their predictions and their place on the public map and in the watch stay as they are,
whatever comes of the call, `Engine.performAll_bystanders`. For the answers about a stop this needs
more than that the lists of the bystanders stay. All vehicles share these answers, and a prediction
is told to be of a vehicle by the name that it carries; so the predictions on the board have to
carry the right names, `Engine.signed_performAll`.
-/

namespace NextStop

variable {α : Type} [Scalar α]

/-- Every call leaves predictions that name the vehicle that they are listed for. -/
theorem Standing.vehicle_eq_of_mem_perform {tt : Timetable α} {s : Statistics α} {id : VehicleId}
    {x : Standing α} (hid : ∀ v, x.known = some v → v.id = id)
    (h : ∀ p ∈ x.listed, p.vehicle = id) (call : Int × Engine.Call α) :
    ∀ p ∈ (x.perform tt s id call).listed, p.vehicle = id := by
  have hnil : ∀ {y : Standing α}, y.listed = [] → ∀ p ∈ y.listed, p.vehicle = id := by
    intro y hy p hp
    rw [hy] at hp
    contradiction
  obtain ⟨now, call⟩ := call
  cases call with
  | report m =>
    rw [Standing.perform]
    split
    · rename_i hm
      rcases Effect.ofReport_cases tt s x now m with
        ⟨-, heffect⟩ | ⟨-, -, heffect⟩ | ⟨p, -, -, -, heffect⟩ | ⟨p, t, -, -, -, -, heffect⟩ |
          ⟨p, t, -, -, -, -, heffect⟩
      · rw [heffect]
        exact h
      · rw [heffect]
        rcases Effect.standing_ofUnplaced x m.report with ⟨-, hunplaced⟩ | ⟨-, hunplaced⟩
        · rw [hunplaced]
          exact h
        · rw [hunplaced]
          exact hnil rfl
      · rw [heffect]
        exact h
      · rw [heffect]
        exact h
      · rw [heffect]
        intro q hq
        replace hq : q ∈ if s.settings.stopEventsOnly then x.listed
          else Yield.predictions s now (Effect.placed x ⟨m.report, p, t⟩ m.scheduleBased).1
            ⟨m.report, p, t⟩ := hq
        split at hq
        · exact h q hq
        · obtain ⟨event, hplaced⟩ := Effect.placed_eq x ⟨m.report, p, t⟩ m.scheduleBased
          have hvehicle : (x.vehicle m.report.vehicle).id = id := by
            rw [hm]
            exact x.vehicle_id hid
          rw [(Yield.of_mem_predictions hq).1, hplaced, hvehicle]
    · exact h
  | unassign other =>
    rw [Standing.perform]
    split
    · cases hknown : x.known with
      | none => exact h
      | some v => exact hnil rfl
    · exact h
  | warmUp history => exact h
  | sweep =>
    rcases listed_sweep s.settings now x with ⟨-, hlisted⟩ | hlisted
    · rw [Standing.perform, hlisted]
      exact h
    · exact hnil hlisted

namespace Engine

/-- After every run of calls, the predictions on the board name the vehicles that they are listed
for. -/
theorem signed_performAll (settings : Settings α) (timetable : Timetable α) (journal : Journal α)
    (calls : List (Int × Call α)) :
    ((start settings timetable journal).performAll calls).board.Signed := by
  refine performAll_standing_induction (t := timetable)
    (P := fun id x => ∀ p ∈ x.listed, p.vehicle = id)
    (fun call hid _ h => Standing.vehicle_eq_of_mem_perform hid h call)
    (Filed.start settings timetable journal) rfl rfl ?_ calls
  intro id
  rw [standing_start]
  exact nofun

/-- Two engines that differ in nothing which is about a vehicle other than `v`: not in what they
have on one, and not in what the board shows of the others for a stop, down to the order. -/
structure SameButFor (v : VehicleId) (e e' : Engine α) : Prop where
  known_eq : ∀ other : VehicleId, v ≠ other → e'.vehicles[other]? = e.vehicles[other]?
  heard_eq : ∀ other : VehicleId, v ≠ other → e'.watch[other]? = e.watch[other]?
  shown_eq : ∀ other : VehicleId, v ≠ other → e'.live[other]? = e.live[other]?
  forVehicle_eq : ∀ other : VehicleId, v ≠ other →
    e'.board.forVehicle other = e.board.forVehicle other
  forStop_eq : ∀ other : VehicleId, v ≠ other → ∀ route stop,
    (e'.board.forStop route stop).filter (·.vehicle = other) =
      (e.board.forStop route stop).filter (·.vehicle = other)
  forStop_others_eq : ∀ route stop,
    (e'.board.forStop route stop).filter (·.vehicle ≠ v) =
      (e.board.forStop route stop).filter (·.vehicle ≠ v)

omit [Scalar α] in
/-- Standings say everything, once the boards of both engines are in order. -/
theorem SameButFor.of_standing {v : VehicleId} {e e' : Engine α} (hsound : e.board.Sound)
    (hsound' : e'.board.Sound) (hsigned : e.board.Signed) (hsigned' : e'.board.Signed)
    (hstanding : ∀ other, v ≠ other → e'.standing other = e.standing other) :
    e.SameButFor v e' where
  known_eq other hne := congrArg Standing.known (hstanding other hne)
  heard_eq other hne := congrArg Standing.heard (hstanding other hne)
  shown_eq other hne := congrArg Standing.shown (hstanding other hne)
  forVehicle_eq other hne := congrArg Standing.listed (hstanding other hne)
  forStop_eq other hne := by
    refine hsound'.filter_forStop_congr hsound hsigned' hsigned (· = other) fun w hw => ?_
    obtain rfl := of_decide_eq_true hw
    exact congrArg Standing.listed (hstanding w hne)
  forStop_others_eq := by
    refine hsound'.filter_forStop_congr hsound hsigned' hsigned (· ≠ v) fun w hw => ?_
    exact congrArg Standing.listed (hstanding w (of_decide_eq_true hw).symm)

/-- After every run of calls, a report of a vehicle changes nothing that is about another vehicle,
whether it is processed, cannot be placed or is rejected, and neither does an unassignment. -/
theorem performAll_bystanders (settings : Settings α) (timetable : Timetable α)
    (journal : Journal α) (calls : List (Int × Call α)) (now : Int) :
    let e := (start settings timetable journal).performAll calls
    (∀ m : MatchedReport α, e.SameButFor m.report.vehicle (e.take now m).2) ∧
      ∀ id : VehicleId, e.SameButFor id (e.unassign now id).2 := by
  intro e
  have hfiled : e.Filed := (Filed.start settings timetable journal).performAll calls
  have hcall : ∀ (v : VehicleId) (call : Call α),
      (∀ other, v ≠ other → (e.perform (now, call)).standing other = e.standing other) →
        e.SameButFor v (e.perform (now, call)) := by
    intro v call hstanding
    -- the engine after the call is again one that a run of calls leads to
    have hafter : e.perform (now, call) =
        (start settings timetable journal).performAll (calls ++ [(now, call)]) :=
      (performAll_append _ calls [(now, call)]).symm
    have hsound := sound_performAll settings timetable journal (calls ++ [(now, call)])
    have hsigned := signed_performAll settings timetable journal (calls ++ [(now, call)])
    rw [← hafter] at hsound hsigned
    exact .of_standing (sound_performAll settings timetable journal calls) hsound
      (signed_performAll settings timetable journal calls) hsigned hstanding
  constructor
  · intro m
    exact hcall m.report.vehicle (.report m) (e.take_effect hfiled now m).2.others
  · intro id
    refine hcall id (.unassign id) fun other hne => ?_
    rw [perform, standing_unassign hfiled, if_neg hne]

/-- A bus and a tram on one trip share the list of the last stop. It is still there for the tram
once the bus is taken off. -/
example :
    let placed (vehicle : VehicleId) (along : Rat) : Int × Call Rat :=
      (0, .report ⟨⟨vehicle, 0, 0, 0, false⟩, some ⟨"line", "block", 0, 0, along, 500⟩, false⟩)
    let e := (start .standard (.ofTrips [twoStops]) (.kept #[])).performAll
      [placed "bus" 100, placed "tram" 250]
    let listed (e : Engine Rat) := (e.board.byStop[RouteStop.mk "1" "market"]?).map (·.keys)
    listed e = some ["bus", "tram"] ∧ listed (e.unassign 0 "bus").2 = some ["tram"] := by
  decide +kernel

end Engine

end NextStop
