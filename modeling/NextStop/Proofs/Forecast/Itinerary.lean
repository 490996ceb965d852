import NextStop.Proofs.Forecast.Way
import NextStop.Proofs.Passage.Course

/-!
# The itinerary of a forecast

Whatever the estimates are, a forecast has the same places in it: the vehicle arrives at every stop
ahead, one after the other, and dwells at all but the last, first of all at the stop that it may be
at. `Forecast.run_itinerary` says of which arrivals and departures the predictions are, in which
order, and which travel and dwell times they are made of.
-/

namespace NextStop

/-- The milestone that a prediction is for. -/
def Prediction.milestone (p : Prediction) : Milestone := (p.kind, p.index)

/-- The stop path and the quantity that an estimate is for. -/
def PathEstimate.part (p : PathEstimate) : Nat × Quantity := (p.index, p.quantity)

/-- Whether vehicles hold at a stop of a trip. -/
def Trip.isWaitStop {α : Type} (t : Trip α) (stop : Nat) : Bool :=
  ((t.stopPath? stop).map StopPath.waitStop).getD false

namespace Forecast

variable {α : Type}

@[simp] theorem predictions_append (f g : Forecast) :
    (f ++ g).predictions = f.predictions ++ g.predictions := rfl

@[simp] theorem estimates_append (f g : Forecast) :
    (f ++ g).estimates = f.estimates ++ g.estimates := rfl

/-! ## The places of a walk -/

/-- What is predicted of the dwell at a stop. -/
def leaving (trip : Trip α) (stop : Nat) : List Milestone :=
  if trip.isWaitStop stop then [(.departure, stop)] else []

/-- What is predicted of a walk from one stop on over `count` further ones. -/
def calls (trip : Trip α) : (first count : Nat) → List Milestone
  | first, 0 => [(.arrival, first)]
  | first, count + 1 => (.arrival, first) :: (leaving trip first ++ calls trip (first + 1) count)

/-- What such a walk estimates. -/
def parts : (first count : Nat) → List (Nat × Quantity)
  | first, 0 => [(first, .travel)]
  | first, count + 1 => (first, .travel) :: (first, .dwell) :: parts (first + 1) count

theorem arrivals_leaving (trip : Trip α) (stop : Nat) :
    (leaving trip stop).filter (·.1.isArrival) = [] := by
  rw [leaving]
  split <;> rfl

theorem arrivals_calls (trip : Trip α) (first count : Nat) :
    ((calls trip first count).filter (·.1.isArrival)).map Prod.snd =
      List.range' first (count + 1) := by
  induction count generalizing first with
  | zero => rfl
  | succ count ih =>
    rw [calls, List.filter_cons_of_pos rfl, List.filter_append, arrivals_leaving, List.nil_append,
      List.map_cons, ih]
    rfl

theorem departures_leaving (trip : Trip α) (stop : Nat) :
    ((leaving trip stop).filter (·.1.isDeparture)).map Prod.snd =
      [stop].filter trip.isWaitStop := by
  rw [leaving, List.filter_singleton]
  cases trip.isWaitStop stop <;> rfl

theorem departures_calls (trip : Trip α) (first count : Nat) :
    ((calls trip first count).filter (·.1.isDeparture)).map Prod.snd =
      (List.range' first count).filter trip.isWaitStop := by
  induction count generalizing first with
  | zero => rfl
  | succ count ih =>
    rw [calls, List.filter_cons_of_neg (by simp [StopEventKind.isDeparture]), List.filter_append,
      List.map_append, departures_leaving, ih, List.range'_succ, ← List.filter_append]
    rfl

theorem head?_calls (trip : Trip α) (first count : Nat) :
    (calls trip first count)[0]? = some (.arrival, first) := by
  cases count <;> rfl

/-- Every departure is directly followed by the arrival at the next stop. -/
def Onward (calls : List Milestone) : Prop :=
  ∀ i stop, calls[i]? = some (.departure, stop) → calls[i + 1]? = some (.arrival, stop + 1)

theorem Onward.arrival {rest : List Milestone} (h : Onward rest) (stop : Nat) :
    Onward ((.arrival, stop) :: rest) := by
  intro i left hi
  cases i with
  | zero => simp at hi
  | succ i => exact h i left hi

/-- Leaving a stop for the next one. -/
theorem Onward.leaving {rest : List Milestone} (h : Onward rest) (trip : Trip α) {stop : Nat}
    (hnext : rest[0]? = some (.arrival, stop + 1)) : Onward (leaving trip stop ++ rest) := by
  rw [Forecast.leaving]
  split
  · intro i left hi
    cases i with
    | zero =>
      obtain rfl : stop = left := by simpa using hi
      exact hnext
    | succ i => exact h i left hi
  · exact h

theorem onward_calls (trip : Trip α) (first count : Nat) : Onward (calls trip first count) := by
  induction count generalizing first with
  | zero =>
    intro i left hi
    cases i <;> simp [calls] at hi
  | succ count ih => exact ((ih (first + 1)).leaving trip (head?_calls trip _ count)).arrival first

theorem parts_eq (first count : Nat) :
    parts first count =
      ((List.range' first count).flatMap fun i => [(i, .travel), (i, .dwell)]) ++
        [(first + count, .travel)] := by
  induction count generalizing first with
  | zero => rfl
  | succ count ih =>
    rw [parts, ih, List.range'_succ, List.flatMap_cons, Nat.add_right_comm]
    rfl

theorem le_of_mem_parts {first count : Nat} {part : Nat × Quantity}
    (h : part ∈ parts first count) : first ≤ part.1 := by
  induction count generalizing first with
  | zero =>
    obtain rfl := List.mem_singleton.mp h
    exact Nat.le_refl first
  | succ count ih =>
    rcases List.mem_cons.mp h with rfl | h
    · exact Nat.le_refl first
    · rcases List.mem_cons.mp h with rfl | h
      · exact Nat.le_refl first
      · exact Nat.le_of_succ_le (ih h)

theorem nodup_parts (first count : Nat) : (parts first count).Nodup := by
  induction count generalizing first with
  | zero => exact List.nodup_singleton _
  | succ count ih =>
    have hlater : ∀ q, (first, q) ∉ parts (first + 1) count := by
      intro q hq
      have hle := le_of_mem_parts hq
      dsimp only at hle
      omega
    rw [parts, List.nodup_cons, List.nodup_cons, List.mem_cons, not_or]
    exact ⟨⟨by simp, hlater _⟩, hlater _, ih (first + 1)⟩

/-! ## The places of a forecast -/

/-- What the predictions and estimates of a forecast are for: `stop?` is the stop that the vehicle
is at, and `first` the first stop ahead. -/
structure Itinerary (trip : Trip α) (stop? : Option Nat) (first : Nat) (f : Forecast) : Prop where
  /-- The arrivals are at the stops ahead up to the last one, one after the other. -/
  arrivals : (f.predictions.filter (·.kind.isArrival)).map (·.index) =
    List.range' first (trip.stopPaths.length - first)
  /-- The departures are from the wait stops among those that the vehicle leaves. -/
  departures : (f.predictions.filter (·.kind.isDeparture)).map (·.index) =
    (stop?.toList ++ List.range' first (trip.stopPaths.length - 1 - first)).filter trip.isWaitStop
  /-- Directly after each departure comes the arrival at the next stop. -/
  onward : ∀ i p, f.predictions[i]? = some p → p.kind = .departure →
    ∃ q, f.predictions[i + 1]? = some q ∧ q.kind = .arrival ∧ q.index = p.index + 1
  /-- The estimates are the dwell at the stop that the vehicle is at, and then by turns the travel
  to a stop and the dwell there, up to the travel to the last stop. -/
  estimates : f.estimates.map PathEstimate.part = stop?.toList.map (·, .dwell) ++
    (List.range' first (trip.stopPaths.length - 1 - first)).flatMap
      (fun i => [(i, .travel), (i, .dwell)]) ++ [(trip.stopPaths.length - 1, .travel)]
  /-- Nothing is estimated twice. -/
  nodup : (f.estimates.map PathEstimate.part).Nodup

theorem Itinerary.of_calls {trip : Trip α} {stop? : Option Nat} {first count : Nat} {f : Forecast}
    (hcount : first + count + 1 = trip.stopPaths.length) (hstop : ∀ stop ∈ stop?, first = stop + 1)
    (hcalls : f.predictions.map Prediction.milestone =
      stop?.toList.flatMap (leaving trip) ++ calls trip first count)
    (hparts : f.estimates.map PathEstimate.part =
      stop?.toList.map (·, .dwell) ++ parts first count) : f.Itinerary trip stop? first := by
  have hall : trip.stopPaths.length - first = count + 1 := by omega
  have hleft : trip.stopPaths.length - 1 - first = count := by omega
  have hlast : trip.stopPaths.length - 1 = first + count := by omega
  -- what the predictions of one kind are for can be read off the milestones
  have hkinds : ∀ test : StopEventKind → Bool,
      (f.predictions.filter fun p => test p.kind).map (·.index) =
        ((stop?.toList.flatMap (leaving trip) ++ calls trip first count).filter
          fun m => test m.1).map Prod.snd := by
    intro test
    rw [← hcalls, List.filter_map, List.map_map]
    rfl
  refine ⟨?_, ?_, ?_, ?_, ?_⟩
  · have hstop : (stop?.toList.flatMap (leaving trip)).filter (·.1.isArrival) = [] := by
      cases stop? with
      | none => rfl
      | some stop =>
        rw [Option.toList_some, List.flatMap_singleton, arrivals_leaving]
    rw [hkinds, List.filter_append, hstop, List.nil_append, arrivals_calls, hall]
  · have hstop : ((stop?.toList.flatMap (leaving trip)).filter (·.1.isDeparture)).map Prod.snd =
        stop?.toList.filter trip.isWaitStop := by
      cases stop? with
      | none => rfl
      | some stop =>
        rw [Option.toList_some, List.flatMap_singleton, departures_leaving]
    rw [hkinds, List.filter_append, List.map_append, hstop, departures_calls, hleft,
      List.filter_append]
  · have honward : Onward (f.predictions.map Prediction.milestone) := by
      rw [hcalls]
      cases stop? with
      | none => exact onward_calls trip first count
      | some stop =>
        rw [Option.toList_some, List.flatMap_singleton]
        refine (onward_calls trip first count).leaving trip ?_
        rw [head?_calls, hstop stop rfl]
    intro i p hp hkind
    have hnext := honward i p.index (by rw [List.getElem?_map, hp, ← hkind]; rfl)
    rw [List.getElem?_map, Option.map_eq_some_iff] at hnext
    obtain ⟨q, hq, hmilestone⟩ := hnext
    exact ⟨q, hq, congrArg Prod.fst hmilestone, congrArg Prod.snd hmilestone⟩
  · rw [hparts, parts_eq, hleft, hlast, List.append_assoc]
  · rw [hparts]
    refine List.nodup_append.mpr ⟨?_, nodup_parts first count, ?_⟩
    · cases stop? <;> simp
    · intro part hpart part' hpart'
      obtain ⟨stop, hmem, rfl⟩ := List.mem_map.mp hpart
      have hle := le_of_mem_parts hpart'
      have hfirst := hstop stop (Option.mem_toList.mp hmem)
      rintro rfl
      dsimp only at hle
      omega

variable [Scalar α]

theorem depart_calls (s : Statistics α) (methods : List Method) (o : Outset α) (now : Int)
    (stop : Nat) (arrival : Int) :
    let f := (depart s methods o now stop arrival).1
    f.predictions.map Prediction.milestone = leaving o.trip stop ∧
      f.estimates.map PathEstimate.part = [(stop, .dwell)] := by
  rw [depart, leaving, Trip.isWaitStop]
  dsimp only
  split <;> exact ⟨rfl, rfl⟩

/-- What a walk predicts and estimates that ends with `count` stops more than the first. -/
theorem walk_calls (methods : List Method) (o : Outset α) (now : Int) {first count : Nat}
    (hcount : first + count + 1 = o.trip.stopPaths.length) (time : Int) (remaining : α)
    (s : Statistics α) :
    let f := (walk methods o now (ahead o.trip first) time remaining s).1
    f.predictions.map Prediction.milestone = calls o.trip first count ∧
      f.estimates.map PathEstimate.part = parts first count := by
  induction count generalizing first time remaining s with
  | zero =>
    have hlast : o.trip.isLast first = true := decide_eq_true (by omega)
    rw [ahead_of_lt _ (by omega), walk]
    dsimp only
    rw [if_pos hlast]
    exact ⟨rfl, rfl⟩
  | succ count ih =>
    have hlast : ¬o.trip.isLast first = true := by
      rw [Trip.isLast, decide_eq_true_eq]
      omega
    rw [ahead_of_lt _ (by omega), walk]
    dsimp only
    rw [if_neg hlast]
    have hdepart := fun s arrival => depart_calls s methods o now first arrival
    have hrest : first + 1 + count + 1 = o.trip.stopPaths.length := by omega
    have honward := fun time s => ih hrest time 1 s
    simp only [predictions_append, estimates_append, List.map_append, hdepart, honward]
    exact ⟨rfl, rfl⟩

/-- A vehicle at the last stop has nothing ahead. For any other the forecast has the places of its
itinerary, whatever the statistics are and by whichever strategy. -/
theorem run_itinerary (s : Statistics α) (strategy : Strategy) (now : Int) (o : Outset α)
    (hindex : o.placement.index < o.trip.stopPaths.length) :
    let stop? := o.placement.atStop? o.trip s.settings.defaultRadius
    let f := (run s strategy now o).1
    (stop? = some (o.trip.stopPaths.length - 1) → f = empty) ∧
      (stop? ≠ some (o.trip.stopPaths.length - 1) →
        f.Itinerary o.trip stop? (o.placement.ahead o.trip s.settings.defaultRadius)) := by
  dsimp only
  cases hstop : o.placement.atStop? o.trip s.settings.defaultRadius with
  | none =>
    obtain ⟨count, hcount⟩ : ∃ count, o.placement.index + count + 1 = o.trip.stopPaths.length :=
      ⟨o.trip.stopPaths.length - o.placement.index - 1, by omega⟩
    refine ⟨fun hlast => by contradiction, fun _ => ?_⟩
    rw [Placement.ahead_of_between hstop]
    simp only [run, hstop]
    obtain ⟨hcalls, hparts⟩ := walk_calls strategy.methods o now hcount o.time
      (1 - o.placement.fraction) s
    exact .of_calls hcount (by simp) hcalls hparts
  | some stop =>
    have hlt := Placement.atStop?_lt hstop
    rw [Placement.ahead_of_atStop hstop]
    simp only [run, hstop]
    constructor
    · intro hlast
      have hend : o.trip.isLast stop = true := by
        rw [Trip.isLast, decide_eq_true_eq, Option.some.inj hlast]
        omega
      rw [if_pos hend]
    · intro hlast
      have hmore : stop ≠ o.trip.stopPaths.length - 1 := fun h => hlast (congrArg some h)
      have hend : ¬o.trip.isLast stop = true := by
        rw [Trip.isLast, decide_eq_true_eq]
        omega
      obtain ⟨count, hcount⟩ : ∃ count, stop + 1 + count + 1 = o.trip.stopPaths.length :=
        ⟨o.trip.stopPaths.length - stop - 2, by omega⟩
      rw [if_neg hend]
      obtain ⟨hleaving, hdwell⟩ := depart_calls s strategy.methods o now stop o.time
      obtain ⟨hcalls, hparts⟩ := walk_calls strategy.methods o now hcount
        (depart s strategy.methods o now stop o.time).2 1 s
      refine .of_calls hcount (fun _ h => by rw [Option.mem_some.mp h]) ?_ ?_
      · rw [predictions_append, List.map_append, hleaving, hcalls, Option.toList_some,
          List.flatMap_singleton]
      · rw [estimates_append, List.map_append, hdwell, hparts, Option.toList_some,
          List.map_singleton]

/-- A ferry has just left for the second of four stops and is still at the first one. It holds there
and at the third stop. -/
theorem run_itinerary_ferry :
    let trip : Trip Rat := ⟨"line", "1", none, "block", "weekdays", false, 0,
      [("harbour", true), ("market", false), ("castle", true), ("lighthouse", false)].map
        fun (stop, waits) => ⟨stop, 60000, 20000, 0, waits, none⟩⟩
    let o : Outset Rat := ⟨"ferry", trip, ⟨"line", "block", 0, 1, 20, 500⟩, 90000, none, false⟩
    let s : Statistics Rat := .empty .standard
    let f := (run s .rlsDwell 95000 o).1
    o.placement.index < trip.stopPaths.length ∧
      (f.predictions.filter (·.kind.isArrival)).map (·.index) = [1, 2, 3] ∧
      (f.predictions.filter (·.kind.isDeparture)).map (·.index) = [0, 2] ∧
      f.estimates.map PathEstimate.part = [(0, .dwell), (1, .travel), (1, .dwell), (2, .travel),
        (2, .dwell), (3, .travel)] := by
  intro trip o s f
  have hindex : o.placement.index < trip.stopPaths.length := by decide
  have hstop : o.placement.atStop? trip s.settings.defaultRadius = some 0 := by decide +kernel
  have hfirst : o.placement.ahead trip s.settings.defaultRadius = 1 := by decide +kernel
  obtain ⟨-, hitinerary⟩ := run_itinerary s .rlsDwell 95000 o hindex
  rw [hstop, hfirst] at hitinerary
  obtain ⟨harrivals, hdepartures, -, hestimates, -⟩ := hitinerary (by decide)
  exact ⟨hindex, harrivals, hdepartures, hestimates⟩

end Forecast

end NextStop
