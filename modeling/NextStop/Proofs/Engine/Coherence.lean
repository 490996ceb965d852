import NextStop.Proofs.Board.Installed
import NextStop.Proofs.Engine.Calls

/-!
# Coherent fleets

The fields of a vehicle depend on each other, and its predictions are kept twice, in its own state
and on the board. `Vehicle.Coherent` says how the fields of one vehicle belong together, and
`Engine.Coherent` that every vehicle is coherent and the board agrees with all of them. Every call
keeps this, whatever it leads to, so that it holds after every run of calls.

What is assumed is only that the timetable stores its trips under their own names.
-/

namespace NextStop

/-! ## Named trips -/

namespace Timetable

variable {α : Type}

/-- Every trip is stored under its own name. -/
def Named (tt : Timetable α) : Prop :=
  ∀ (id : TripId) (t : Trip α), tt.trip? id = some t → t.id = id

theorem named_empty : (empty : Timetable α).Named := by
  intro id t ht
  rw [trip?, empty, Std.TreeMap.getElem?_emptyc] at ht
  contradiction

theorem Named.addTrip {tt : Timetable α} (h : tt.Named) (t : Trip α) : (tt.addTrip t).Named := by
  intro id u hu
  rw [trip?, Timetable.addTrip, Std.TreeMap.getElem?_insert] at hu
  split at hu
  · rename_i hid
    obtain rfl := Option.some.inj hu
    exact Std.LawfulEqCmp.eq_of_compare hid
  · exact h id u hu

/-- A timetable of a list of trips stores each under its own name. -/
theorem named_ofTrips (trips : List (Trip α)) : (ofTrips trips).Named := by
  have hfold : ∀ tt : Timetable α, tt.Named → (trips.foldl Timetable.addTrip tt).Named := by
    induction trips with
    | nil => exact fun tt htt => htt
    | cons t rest ih => exact fun tt htt => ih _ (htt.addTrip t)
  exact hfold empty named_empty

end Timetable

/-! ## The fields of a vehicle -/

namespace Vehicle

variable {α : Type}

/-- The placement, its trip and its time are known together, and so are the placement before and
its time, which leaves a placement after it. A predictable vehicle has been placed and has
reported; one that is not has neither predictions nor a headway and waits nowhere. -/
structure Coherent (v : Vehicle α) : Prop where
  trip_isSome : v.trip.isSome = v.placement.isSome
  placedAt_isSome : v.placedAt.isSome = v.placement.isSome
  previousAt_isSome : v.previousAt.isSome = v.previous.isSome
  placed_of_previous : v.previous.isSome = true → v.placement.isSome = true
  named : ∀ {p : Placement α} {t : Trip α}, v.placement = some p → v.trip = some t → t.id = p.trip
  placed : v.predictable = true → v.placement.isSome = true
  reported : v.predictable = true → v.lastReport.isSome = true
  idle : v.predictable = false → v.predictions = [] ∧ v.headway = none ∧ v.atWaitStop = false

theorem Coherent.unknown (id : VehicleId) : (Vehicle.unknown id : Vehicle α).Coherent where
  trip_isSome := rfl
  placedAt_isSome := rfl
  previousAt_isSome := rfl
  placed_of_previous h := h
  named h := by contradiction
  placed h := by contradiction
  reported h := by contradiction
  idle _ := ⟨rfl, rfl, rfl⟩

/-- A placed vehicle is predictable, and keeps its predictions for now. -/
theorem place_eq (v : Vehicle α) (r : Report α) (p : Placement α) (t : Trip α) :
    ∃ event, (v.place r p t).1 = { v with
      placement := some p
      trip := some t
      placedAt := some r.time
      previous := v.placement
      previousAt := v.placedAt
      lastReport := some r
      predictable := true
      lastEvent := event } := by
  rw [place]
  dsimp only
  split
  · rename_i hpredictable
    refine ⟨v.lastEvent, ?_⟩
    rw [← hpredictable]
  · exact ⟨_, rfl⟩

theorem Coherent.place {v : Vehicle α} (h : v.Coherent) (r : Report α) {p : Placement α}
    {t : Trip α} (ht : t.id = p.trip) : (v.place r p t).1.Coherent := by
  obtain ⟨event, hplace⟩ := v.place_eq r p t
  rw [hplace]
  constructor
  · rfl
  · rfl
  · exact h.placedAt_isSome
  · intro _
    rfl
  · intro p' t' hp' ht'
    obtain rfl := Option.some.inj hp'
    obtain rfl := Option.some.inj ht'
    exact ht
  · intro _
    rfl
  · intro _
    rfl
  · intro hidle
    contradiction

/-- A demoted vehicle stays where it was placed. -/
theorem Coherent.demote {v : Vehicle α} (h : v.Coherent) (kind : StatusKind)
    (description : String) (time : Int) : (v.demote kind description time).1.Coherent :=
  { h with
    placed := fun hpredictable => by contradiction
    reported := fun hpredictable => by contradiction
    idle := fun _ => ⟨rfl, rfl, rfl⟩ }

theorem Coherent.reportOnly {v : Vehicle α} (h : v.Coherent) (r : Report α) :
    Coherent { v with lastReport := some r } :=
  { h with reported := fun _ => rfl }

/-- A report that cannot be placed demotes a vehicle that is predictable. -/
theorem misplace_cases (v : Vehicle α) (r : Report α) :
    (∃ demoted event, v.misplace r = (demoted, some event) ∧
      Vehicle.demote { v with lastReport := some r } .noMatch "No match for AVL report" r.time =
        (demoted, event)) ∨
    v.misplace r = ({ v with lastReport := some r }, none) := by
  rw [misplace]
  dsimp only
  split
  · exact Or.inl ⟨_, _, rfl, rfl⟩
  · exact Or.inr rfl

/-- A vehicle taken off its assignment has no placement at all. -/
theorem Coherent.unassign {v : Vehicle α} (time : Int) : (v.unassign time).1.Coherent where
  trip_isSome := rfl
  placedAt_isSome := rfl
  previousAt_isSome := rfl
  placed_of_previous h := h
  named h := by contradiction
  placed h := by contradiction
  reported h := by contradiction
  idle _ := ⟨rfl, rfl, rfl⟩

/-- A cycle may set wait stop, predictions and headway of a predictable vehicle. -/
theorem Coherent.refresh {v : Vehicle α} (h : v.Coherent) (hpredictable : v.predictable = true)
    (waiting : Bool) (predictions : List Prediction) (headway : Option Headway) :
    Coherent { v with
      atWaitStop := waiting
      predictions := predictions
      headway := headway } :=
  { h with
    idle := by
      intro hidle
      rw [hpredictable] at hidle
      contradiction }

theorem Coherent.scheduleBased {v : Vehicle α} (h : v.Coherent) (b : Bool) :
    Coherent { v with scheduleBased := b } :=
  { h with }

end Vehicle

/-! ## Fleets -/

namespace Engine

variable {α : Type}

/-- Every vehicle is coherent, and the board has exactly its predictions. -/
structure Coherent (e : Engine α) : Prop where
  named : e.timetable.Named
  sound : e.board.Sound
  vehicle_id : ∀ id, (e.vehicle id).id = id
  vehicle : ∀ id, (e.vehicle id).Coherent
  forVehicle_eq : ∀ id, e.board.forVehicle id = (e.vehicle id).predictions

/-- One engine comes from another by a change of one vehicle that is yet to be kept: the board has
its predictions already, which may be those from before. -/
structure Revised (e : Engine α) (v : Vehicle α) (e' : Engine α) : Prop where
  timetable_eq : e'.timetable = e.timetable
  vehicles_eq : e'.vehicles = e.vehicles
  board_eq : e'.board = e.board.replace v.id v.predictions ∨
    e'.board = e.board ∧ v.predictions = (e.vehicle v.id).predictions

theorem vehicle_keep (e : Engine α) (v : Vehicle α) (id : VehicleId) :
    (e.keep v).vehicle id = if v.id = id then v else e.vehicle id := by
  rw [vehicle, keep, Std.TreeMap.getElem?_insert]
  simp only [Std.LawfulEqCmp.compare_eq_iff_eq]
  split
  · rfl
  · rfl

/-- Only the timetable, the vehicles and the board matter. -/
theorem Coherent.congr {e e' : Engine α} (h : e.Coherent) (htimetable : e'.timetable = e.timetable)
    (hvehicles : e'.vehicles = e.vehicles) (hboard : e'.board = e.board) : e'.Coherent := by
  have hvehicle : ∀ id, e'.vehicle id = e.vehicle id := by
    intro id
    rw [Engine.vehicle, Engine.vehicle, hvehicles]
  constructor
  · rw [htimetable]
    exact h.named
  · rw [hboard]
    exact h.sound
  · intro id
    rw [hvehicle]
    exact h.vehicle_id id
  · intro id
    rw [hvehicle]
    exact h.vehicle id
  · intro id
    rw [hvehicle, hboard]
    exact h.forVehicle_eq id

/-- Vehicles with predictions on the board are known. -/
theorem Coherent.mem_vehicles {e : Engine α} (h : e.Coherent) {id : VehicleId}
    (hlisted : e.board.forVehicle id ≠ []) : id ∈ e.vehicles := by
  by_contra hunknown
  rw [h.forVehicle_eq, Engine.vehicle, Std.TreeMap.getElem?_eq_none hunknown] at hlisted
  exact hlisted rfl

/-- Keeping a changed vehicle completes the change. -/
theorem Coherent.keep {e e' : Engine α} {v : Vehicle α} (h : e.Coherent) (hv : v.Coherent)
    (hrev : Revised e v e') : (e'.keep v).Coherent := by
  have hvehicle : ∀ id, (e'.keep v).vehicle id = if v.id = id then v else e.vehicle id := by
    intro id
    rw [vehicle_keep, Engine.vehicle, hrev.vehicles_eq, ← Engine.vehicle]
  -- where nothing was put on the board, its list is still right for the changed vehicle
  have hboard : e'.board.Sound ∧ ∀ id, e'.board.forVehicle id =
      if v.id = id then v.predictions else e.board.forVehicle id := by
    rcases hrev.board_eq with hnew | ⟨hsame, hold⟩
    · rw [hnew]
      exact ⟨h.sound.replace _ _, fun id => Board.forVehicle_replace _ _ _ _⟩
    · rw [hsame]
      refine ⟨h.sound, ?_⟩
      intro id
      split
      · rename_i hid
        rw [← hid, h.forVehicle_eq, hold]
      · rfl
  constructor
  · show e'.timetable.Named
    rw [hrev.timetable_eq]
    exact h.named
  · exact hboard.1
  · intro id
    rw [hvehicle]
    split
    · rename_i hid
      exact hid
    · exact h.vehicle_id id
  · intro id
    rw [hvehicle]
    split
    · exact hv
    · exact h.vehicle id
  · intro id
    rw [hvehicle]
    refine (hboard.2 id).trans ?_
    split
    · rfl
    · exact h.forVehicle_eq id

/-- The vehicle of a name that is in the table. -/
theorem vehicle_of_getElem? {e : Engine α} {id : VehicleId} {v : Vehicle α}
    (hv : e.vehicles[id]? = some v) : e.vehicle id = v := by
  rw [vehicle, hv]
  rfl

/-- A demotion takes the predictions of the vehicle off the board. -/
theorem revised_afterDemotion (e : Engine α) {v : Vehicle α} (event : StatusEvent)
    (hv : v.predictions = []) : Revised e v (e.afterDemotion v event) := by
  obtain ⟨live, hdemote⟩ := e.afterDemotion_eq v event
  rw [hdemote]
  refine ⟨rfl, rfl, Or.inl ?_⟩
  rw [hv]
  rfl

/-- Taking a vehicle off its assignment keeps a fleet coherent, also when the vehicle is not
known. -/
theorem Coherent.unassign {e : Engine α} (h : e.Coherent) (now : Int) (id : VehicleId) :
    (e.unassign now id).2.Coherent := by
  rw [Engine.unassign]
  split
  · exact h
  · rename_i v hv
    have hrev := e.revised_afterDemotion (v.unassign now).2 (v := (v.unassign now).1) rfl
    have hkeep := h.keep (Vehicle.Coherent.unassign now) hrev
    exact hkeep.congr rfl rfl rfl

theorem Coherent.timeOut {e : Engine α} (h : e.Coherent) (now : Int) {v : Vehicle α}
    (hv : v.Coherent) (cause : TimeoutCause) : (e.timeOut now v cause).2.Coherent := by
  have hrev := e.revised_afterDemotion (v.demote .timeout cause.description now).2
    (v := (v.demote .timeout cause.description now).1) rfl
  have hkeep := h.keep (hv.demote _ _ _) hrev
  rw [Engine.timeOut]
  dsimp only
  split
  · exact hkeep.congr rfl rfl rfl
  · exact hkeep.congr rfl rfl rfl

theorem Coherent.takeUnplaced {e : Engine α} (h : e.Coherent) (r : Report α) :
    (e.takeUnplaced r).Coherent := by
  have hv := (h.vehicle r.vehicle).reportOnly r
  rw [Engine.takeUnplaced]
  rcases (e.vehicle r.vehicle).misplace_cases r with
    ⟨demoted, event, hmisplace, hdemote⟩ | hmisplace
  · rw [hmisplace]
    have hdemoted := hv.demote .noMatch "No match for AVL report" r.time
    have hnone : (Vehicle.demote { e.vehicle r.vehicle with lastReport := some r } .noMatch
      "No match for AVL report" r.time).1.predictions = [] := rfl
    rw [hdemote] at hdemoted hnone
    exact (h.keep hdemoted (e.revised_afterDemotion event hnone)).congr rfl rfl rfl
  · rw [hmisplace]
    have hrev : Revised e { e.vehicle r.vehicle with lastReport := some r } e := by
      refine ⟨rfl, rfl, Or.inr ⟨rfl, ?_⟩⟩
      show (e.vehicle r.vehicle).predictions = (e.vehicle (e.vehicle r.vehicle).id).predictions
      rw [h.vehicle_id]
    exact (h.keep hv hrev).congr rfl rfl rfl

variable [Scalar α]

/-- Processing changes a vehicle, whose predictions may still be those from before. -/
theorem revised_processVehicle (e : Engine α) (now : Int) {v : Vehicle α} (hv : v.Coherent)
    (hkept : v.predictions = (e.vehicle v.id).predictions) :
    (e.processVehicle now v).2.1.Coherent ∧ (e.processVehicle now v).2.1.id = v.id ∧
      Revised e (e.processVehicle now v).2.1 (e.processVehicle now v).2.2 := by
  have hsame : Revised e v e := ⟨rfl, rfl, Or.inr ⟨rfl, hkept⟩⟩
  rcases e.processVehicle_cases now v with
    ⟨error, herror⟩ | hnothing | ⟨f, hpredictable, -, -, -, -, hcycle⟩
  · rw [herror]
    exact ⟨hv, rfl, hsame⟩
  · rw [hnothing]
    exact ⟨hv, rfl, hsame⟩
  · obtain ⟨waiting, predictions, headway, statistics, journal, board, live, hrun, hboard⟩ :=
      e.runCycle_eq now v f
    rw [hcycle, hrun]
    refine ⟨hv.refresh hpredictable waiting predictions headway, rfl, rfl, rfl, ?_⟩
    rcases hboard with hnew | ⟨hold, hpredictions, -⟩
    · exact Or.inl hnew
    · exact Or.inr ⟨hold, hpredictions.trans hkept⟩

/-! ## Every call keeps a fleet coherent -/

theorem Coherent.takePlaced {e : Engine α} (h : e.Coherent) (now : Int) (r : Report α)
    {p : Placement α} {t : Trip α} (ht : t.id = p.trip) (scheduleBased : Bool) :
    (e.takePlaced now r p t scheduleBased).2.Coherent := by
  have hplace := (h.vehicle r.vehicle).place r ht
  have hkept : ((e.vehicle r.vehicle).place r p t).1.predictions =
      (e.vehicle ((e.vehicle r.vehicle).place r p t).1.id).predictions := by
    obtain ⟨event, hplaced⟩ := (e.vehicle r.vehicle).place_eq r p t
    rw [hplaced, h.vehicle_id]
  rw [Engine.takePlaced]
  generalize (e.vehicle r.vehicle).place r p t = placed at hplace hkept ⊢
  obtain ⟨v, event⟩ := placed
  obtain ⟨journal, hrecord⟩ := e.recordChange_eq event
  dsimp only
  rw [hrecord]
  have hrecorded : Coherent { e with journal := journal } := h.congr rfl rfl rfl
  obtain ⟨hv, -, hrev⟩ := revised_processVehicle { e with journal := journal } now
    (hplace.scheduleBased scheduleBased) hkept
  exact (hrecorded.keep hv hrev).congr rfl rfl rfl

theorem Coherent.take {e : Engine α} (h : e.Coherent) (now : Int) (m : MatchedReport α) :
    (e.take now m).2.Coherent := by
  rw [Engine.take]
  split
  · exact h
  · split
    · exact h.takeUnplaced m.report
    · rename_i p hp
      split
      · exact h
      · rename_i t ht
        exact h.takePlaced now m.report (h.named _ _ ht) m.scheduleBased

theorem Coherent.sweepOne {e : Engine α} (h : e.Coherent) (now : Int) (id : VehicleId)
    (watched : Int) : (e.sweepOne now id watched).2.Coherent := by
  rw [Engine.sweepOne]
  split
  · exact h.congr rfl rfl rfl
  · rename_i v hv
    dsimp only
    split
    · exact h.congr rfl rfl rfl
    · exact h.congr rfl rfl rfl
    · exact h.congr rfl rfl rfl
    · exact h.timeOut now (vehicle_of_getElem? hv ▸ h.vehicle id) _

theorem Coherent.perform {e : Engine α} (h : e.Coherent) (call : Int × Call α) :
    (e.perform call).Coherent := by
  obtain ⟨now, call⟩ := call
  cases call with
  | report m => exact h.take now m
  | unassign id => exact h.unassign now id
  | warmUp history => exact h.congr rfl rfl rfl
  | sweep => exact sweepAll_induction (fun e id watched h => h.sweepOne now id watched) _ h

/-! ## Runs -/

theorem Coherent.start (settings : Settings α) {timetable : Timetable α}
    (hnamed : timetable.Named) (journal : Journal α) :
    (Engine.start settings timetable journal).Coherent where
  named := hnamed
  sound := Board.sound_empty
  vehicle_id id := by
    rw [Engine.start, Engine.vehicle, Std.TreeMap.getElem?_emptyc]
    rfl
  vehicle id := by
    rw [Engine.start, Engine.vehicle, Std.TreeMap.getElem?_emptyc]
    exact Vehicle.Coherent.unknown id
  forVehicle_eq id := by
    rw [Engine.start, Engine.vehicle, Std.TreeMap.getElem?_emptyc, Board.forVehicle, Board.empty,
      Std.TreeMap.getElem?_emptyc]
    rfl

/-- After every run of calls, whatever each of them leads to, the fields of every vehicle belong
together, and the board has the predictions of the vehicles and no others. -/
theorem performAll_fields_agree (settings : Settings α) (timetable : Timetable α)
    (journal : Journal α) (hnamed : timetable.Named) (calls : List (Int × Call α)) :
    let e := (Engine.start settings timetable journal).performAll calls
    (∀ (id : VehicleId) (v : Vehicle α), e.vehicles[id]? = some v → v.id = id ∧
      (v.predictable = true → ∃ (p : Placement α) (t : Trip α) (r : Report α) (time : Int),
        v.placement = some p ∧ v.trip = some t ∧ t.id = p.trip ∧ v.lastReport = some r ∧
          v.placedAt = some time) ∧
      v.trip.isSome = v.placement.isSome ∧ v.placedAt.isSome = v.placement.isSome ∧
      v.previousAt.isSome = v.previous.isSome ∧
      (v.previous.isSome = true → v.placement.isSome = true) ∧
      (v.predictable = false →
        v.predictions = [] ∧ v.headway = none ∧ v.atWaitStop = false) ∧
      v.predictions = e.board.forVehicle id) ∧
    (∀ id : VehicleId, id ∈ e.board.byVehicle → id ∈ e.vehicles) ∧
    ∀ (rs : RouteStop) (vehicles : Std.TreeMap VehicleId (List Prediction)) (id : VehicleId),
      e.board.byStop[rs]? = some vehicles → id ∈ vehicles → id ∈ e.vehicles := by
  intro e
  have h : e.Coherent := performAll_induction (fun e call he => he.perform call)
    (Coherent.start settings hnamed journal) calls
  refine ⟨?_, ?_, ?_⟩
  · intro id v hid
    have hknown := vehicle_of_getElem? hid
    have hv := h.vehicle id
    rw [hknown] at hv
    have hpredictable : v.predictable = true → ∃ (p : Placement α) (t : Trip α) (r : Report α)
        (time : Int), v.placement = some p ∧ v.trip = some t ∧ t.id = p.trip ∧
          v.lastReport = some r ∧ v.placedAt = some time := by
      intro hp
      have hplaced := hv.placed hp
      obtain ⟨p, hp'⟩ := Option.isSome_iff_exists.mp hplaced
      obtain ⟨t, ht⟩ := Option.isSome_iff_exists.mp (hv.trip_isSome.trans hplaced)
      obtain ⟨time, htime⟩ := Option.isSome_iff_exists.mp (hv.placedAt_isSome.trans hplaced)
      obtain ⟨r, hr⟩ := Option.isSome_iff_exists.mp (hv.reported hp)
      exact ⟨p, t, r, time, hp', ht, hv.named hp' ht, hr, htime⟩
    refine ⟨?_, hpredictable, hv.trip_isSome, hv.placedAt_isSome, hv.previousAt_isSome,
      hv.placed_of_previous, hv.idle, ?_⟩
    · rw [← hknown]
      exact h.vehicle_id id
    · rw [h.forVehicle_eq, hknown]
  · intro id hid
    exact h.mem_vehicles ((Board.mem_byVehicle_iff h.sound id).mp hid)
  · intro rs vehicles id hrs hid
    exact h.mem_vehicles (Board.forVehicle_ne_of_byStop h.sound hrs hid)

/-- A trip with two stops. -/
def twoStops : Trip Rat where
  id := "line"
  route := "1"
  direction := none
  block := "block"
  service := "weekdays"
  frequencyBased := false
  start := 0
  stopPaths := ["harbour", "market"].map fun stop => ⟨stop, 60000, 0, 0, false, none⟩

/-- A bus is placed on that trip, then on one that the timetable does not have, and a tram cannot
be placed. -/
def busAndTram : List (Int × Call Rat) :=
  let reported (vehicle : VehicleId) (time : Int) : Report Rat := ⟨vehicle, time, 0, 0, false⟩
  [(0, .report ⟨reported "bus" 0, some ⟨"line", "block", 0, 0, 250, 500⟩, false⟩),
    (10000, .report ⟨reported "bus" 10000, some ⟨"loop", "block", 0, 0, 250, 500⟩, false⟩),
    (20000, .report ⟨reported "tram" 20000, none, false⟩)]

/-- The bus is still predictable, its two predictions are on the board, and the tram has none. -/
theorem performAll_fields_agree_busAndTram :
    let timetable := Timetable.ofTrips [twoStops]
    let e := (Engine.start .standard timetable (.kept #[])).performAll busAndTram
    timetable.Named ∧
      (∃ v, e.vehicles["bus"]? = some v ∧ v.predictable = true ∧ v.placedAt.isSome = true ∧
        (e.board.forVehicle "bus").map (·.stop) = ["harbour", "market"] ∧
        v.predictions = e.board.forVehicle "bus") ∧
      ∃ v, e.vehicles["tram"]? = some v ∧ v.predictable = false ∧
        e.board.forVehicle "tram" = [] := by
  intro timetable e
  have hnamed : timetable.Named := Timetable.named_ofTrips [twoStops]
  obtain ⟨hvehicles, -, -⟩ :=
    performAll_fields_agree .standard timetable (.kept #[]) hnamed busAndTram
  have hbus : (e.vehicles["bus"]?).map (·.predictable) = some true := by decide +kernel
  have htram : (e.vehicles["tram"]?).map (·.predictable) = some false := by decide +kernel
  have hlisted : (e.board.forVehicle "bus").map (·.stop) = ["harbour", "market"] := by
    decide +kernel
  refine ⟨hnamed, ?_, ?_⟩
  · obtain ⟨v, hv, hpredictable⟩ := Option.map_eq_some_iff.mp hbus
    obtain ⟨-, hready, -, -, -, -, -, hagree⟩ := hvehicles "bus" v hv
    obtain ⟨p, t, r, time, -, -, -, -, hplaced⟩ := hready hpredictable
    exact ⟨v, hv, hpredictable, by rw [hplaced]; rfl, hlisted, hagree⟩
  · obtain ⟨v, hv, hidle⟩ := Option.map_eq_some_iff.mp htram
    obtain ⟨-, -, -, -, -, -, hnothing, hagree⟩ := hvehicles "tram" v hv
    refine ⟨v, hv, hidle, ?_⟩
    rw [← hagree]
    exact (hnothing hidle).1

end Engine

end NextStop
