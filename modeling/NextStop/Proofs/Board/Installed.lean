import Mathlib.Data.List.Dedup
import Mathlib.Data.List.Induction
import NextStop.Proofs.Board.Agreement
import NextStop.Proofs.StableSort

/-!
# What the board shows

A board that went through any replacements and removals shows the predictions installed last for
each vehicle, and nothing else. `Board.Shows` says what that means for every question to the
board: by vehicle, by route and stop, and for all predictions, each with its multiplicity and
soonest first. The vehicles named in the predictions play no part: what counts is for which
vehicle a list was installed.
-/

namespace NextStop

namespace Board

/-! ## Order -/

theorem sorted_perm (ps : List Prediction) : (sorted ps).Perm ps := List.mergeSort_perm ps _

theorem sorted_pairwise (ps : List Prediction) :
    (sorted ps).Pairwise fun p q => p.time ≤ q.time :=
  (List.pairwise_mergeSort (StableSort.key_trans Prediction.time)
    (StableSort.key_total Prediction.time) ps).imp of_decide_eq_true

/-! ## The answers of a board whose tables agree -/

/-- What a board answers when the predictions in force are those of `lists`, which has none for
vehicles other than the given ones. -/
structure Shows (b : Board) (vehicles : List VehicleId) (lists : VehicleId → List Prediction) :
    Prop where
  forVehicle_eq : ∀ v, b.forVehicle v = lists v
  forStop_perm : ∀ route stop, (b.forStop route stop).Perm
    (vehicles.flatMap fun v => (lists v).filter fun p => p.route = route ∧ p.stop = stop)
  forStop_sorted : ∀ route stop, (b.forStop route stop).Pairwise fun p q => p.time ≤ q.time
  all_perm : b.all.Perm (vehicles.flatMap lists)
  all_sorted : b.all.Pairwise fun p q => p.time ≤ q.time
  vehicleCount_eq : b.vehicleCount = (vehicles.filter fun v => lists v ≠ []).length
  vehicle_ne : ∀ v : VehicleId, b.byVehicle[v]? ≠ some []
  stop_ne : ∀ (rs : RouteStop) (m : Std.TreeMap VehicleId (List Prediction)),
    b.byStop[rs]? = some m → m.isEmpty = false ∧ ∀ v : VehicleId, m[v]? ≠ some []

theorem mem_byVehicle_iff {b : Board} (h : b.Sound) (v : VehicleId) :
    v ∈ b.byVehicle ↔ b.forVehicle v ≠ [] := by
  rw [Table.mem_iff, forVehicle]
  constructor
  · rintro ⟨l, hl⟩
    rw [hl, Option.getD_some]
    exact h.vehicle_ne hl
  · intro hne
    cases hl : b.byVehicle[v]? with
    | none =>
      rw [hl] at hne
      exact absurd rfl hne
    | some l => exact ⟨l, rfl⟩

/-- A vehicle that is listed for a stop has predictions. -/
theorem forVehicle_ne_of_byStop {b : Board} (h : b.Sound) {rs : RouteStop}
    {m : Std.TreeMap VehicleId (List Prediction)} (hm : b.byStop[rs]? = some m) {v : VehicleId}
    (hv : v ∈ m) : b.forVehicle v ≠ [] := by
  obtain ⟨l, hl⟩ := Table.mem_iff.mp hv
  have hlisted : b.listed rs v = l := by
    rw [listed, hm, Option.bind_some, hl, Option.getD_some]
  intro hnil
  have hempty := h.listed_eq rs v
  rw [hnil, List.filter_nil, hlisted] at hempty
  exact h.tidy.list_ne hm hl hempty

theorem forStop_perm_listed {b : Board} (h : b.Sound) {vehicles : List VehicleId}
    (hn : vehicles.Nodup) (hv : ∀ v, b.forVehicle v ≠ [] → v ∈ vehicles)
    (route : RouteId) (stop : StopId) :
    (b.forStop route stop).Perm (vehicles.flatMap (b.listed ⟨route, stop⟩)) := by
  refine (sorted_perm _).trans ?_
  cases hm : b.byStop[RouteStop.mk route stop]? with
  | none =>
    have hnil : ∀ v ∈ vehicles, b.listed ⟨route, stop⟩ v = [] := by
      intro v _
      rw [listed, hm, Option.bind_none, Option.getD_none]
    rw [List.flatMap_congr hnil, Option.map_none, Option.getD_none]
    simp
  | some m =>
    have hrow : ∀ v ∈ vehicles, b.listed ⟨route, stop⟩ v = (m[v]?).getD [] := by
      intro v _
      rw [listed, hm, Option.bind_some]
    rw [List.flatMap_congr hrow, Option.map_some, Option.getD_some]
    exact Table.values_flatten_perm m hn fun v hmem => hv v (forVehicle_ne_of_byStop h hm hmem)

theorem vehicleCount_eq_length {b : Board} (h : b.Sound) {vehicles : List VehicleId}
    (hn : vehicles.Nodup) (hv : ∀ v, b.forVehicle v ≠ [] → v ∈ vehicles) :
    b.vehicleCount = (vehicles.filter fun v => b.forVehicle v ≠ []).length := by
  have hcover : ∀ v ∈ b.byVehicle, v ∈ vehicles := fun v hmem =>
    hv v ((mem_byVehicle_iff h v).mp hmem)
  have hsame : vehicles.filter b.byVehicle.contains =
      vehicles.filter fun v => b.forVehicle v ≠ [] := by
    apply List.filter_congr
    intro v _
    rw [Bool.eq_iff_iff, Std.TreeMap.contains_iff_mem, mem_byVehicle_iff h, decide_eq_true_iff]
  rw [vehicleCount, ← Std.TreeMap.length_keys,
    (Table.keys_perm_filter b.byVehicle hn hcover).length_eq, hsame]

/-- A board whose tables agree shows the lists of its vehicles. -/
theorem Sound.shows {b : Board} (h : b.Sound) {vehicles : List VehicleId}
    (hn : vehicles.Nodup) (hv : ∀ v, b.forVehicle v ≠ [] → v ∈ vehicles) :
    b.Shows vehicles b.forVehicle where
  forVehicle_eq _ := rfl
  forStop_perm route stop := by
    have hfilter : ∀ v ∈ vehicles, b.listed ⟨route, stop⟩ v =
        (b.forVehicle v).filter fun p => p.route = route ∧ p.stop = stop := by
      intro v _
      rw [h.listed_eq]
      apply List.filter_congr
      intro p _
      simp only [RouteStop.ofPrediction, RouteStop.mk.injEq]
    rw [← List.flatMap_congr hfilter]
    exact forStop_perm_listed h hn hv route stop
  forStop_sorted _ _ := sorted_pairwise _
  all_perm := (sorted_perm _).trans <| Table.values_flatten_perm b.byVehicle hn
    fun v hmem => hv v ((mem_byVehicle_iff h v).mp hmem)
  all_sorted := sorted_pairwise _
  vehicleCount_eq := vehicleCount_eq_length h hn hv
  vehicle_ne _ hl := h.vehicle_ne hl rfl
  stop_ne _ _ hm := ⟨h.tidy.stop_ne hm, fun _ hl => h.tidy.list_ne hm hl rfl⟩

section Members

variable {b : Board} (h : b.Sound)

include h

/-- The board shows itself, for the vehicles that have predictions. -/
theorem Sound.shows_keys : b.Shows b.byVehicle.keys b.forVehicle :=
  h.shows Std.TreeMap.nodup_keys fun v hv =>
    Std.TreeMap.mem_keys.mpr ((mem_byVehicle_iff h v).mpr hv)

/-- The predictions for a stop are those of the vehicles. -/
theorem Sound.mem_forStop {route : RouteId} {stop : StopId} {p : Prediction}
    (hp : p ∈ b.forStop route stop) :
    (∃ v, p ∈ b.forVehicle v) ∧ p.route = route ∧ p.stop = stop := by
  obtain ⟨v, -, hv⟩ := List.mem_flatMap.mp ((h.shows_keys.forStop_perm route stop).mem_iff.mp hp)
  obtain ⟨hv, hserves⟩ := List.mem_filter.mp hv
  exact ⟨⟨v, hv⟩, of_decide_eq_true hserves⟩

/-- All predictions are those of the vehicles. -/
theorem Sound.mem_all {p : Prediction} (hp : p ∈ b.all) : ∃ v, p ∈ b.forVehicle v := by
  obtain ⟨v, -, hv⟩ := List.mem_flatMap.mp (h.shows_keys.all_perm.mem_iff.mp hp)
  exact ⟨v, hv⟩

end Members

/-! ## Boards with the same lists -/

/-- Lists that are kept only if they are not empty are known from their look-ups. -/
theorem kept_eq_of_getD_eq {o o' : Option (List Prediction)} (ho : ∀ l, o = some l → l ≠ [])
    (ho' : ∀ l, o' = some l → l ≠ []) (h : o.getD [] = o'.getD []) : o = o' := by
  cases o with
  | none =>
    cases o' with
    | none => rfl
    | some l' => exact absurd h.symm (ho' l' rfl)
  | some l =>
    cases o' with
    | none => exact absurd h (ho l rfl)
    | some l' => exact congrArg some h

theorem forStop_eq_sorted (b : Board) (route : RouteId) (stop : StopId) :
    b.forStop route stop =
      sorted ((b.byStop[RouteStop.mk route stop]?).getD ∅).values.flatten := by
  rw [forStop]
  cases b.byStop[RouteStop.mk route stop]? with
  | none => rfl
  | some m => rfl

/-- What is listed for a stop is looked up in the table of its vehicles. -/
theorem listed_eq_getD (b : Board) (route : RouteId) (stop : StopId) (v : VehicleId) :
    b.listed ⟨route, stop⟩ v = (((b.byStop[RouteStop.mk route stop]?).getD ∅)[v]?).getD [] := by
  rw [Table.getElem?_getD_empty]
  rfl

/-- No list is kept for a stop that is empty. -/
theorem Sound.kept_forStop {b : Board} (h : b.Sound) (route : RouteId) (stop : StopId)
    (v : VehicleId) (l : List Prediction)
    (hl : ((b.byStop[RouteStop.mk route stop]?).getD ∅)[v]? = some l) : l ≠ [] := by
  rw [Table.getElem?_getD_empty] at hl
  obtain ⟨m, hm, hv⟩ := Option.bind_eq_some_iff.mp hl
  exact h.tidy.list_ne hm hv

section SameLists

variable {b c : Board} (hb : b.Sound) (hc : c.Sound)
  (h : ∀ v, b.forVehicle v = c.forVehicle v)

include hb hc h

theorem Sound.byVehicle_equiv : b.byVehicle.Equiv c.byVehicle := by
  apply Table.equiv_of_getElem?
  intro v
  exact kept_eq_of_getD_eq (fun _ => hb.vehicle_ne) (fun _ => hc.vehicle_ne) (h v)

theorem Sound.forStop_congr (route : RouteId) (stop : StopId) :
    b.forStop route stop = c.forStop route stop := by
  rw [forStop_eq_sorted, forStop_eq_sorted]
  congr 2
  apply Std.TreeMap.Equiv.values_eq
  apply Table.equiv_of_getElem?
  intro v
  refine kept_eq_of_getD_eq (hb.kept_forStop route stop v) (hc.kept_forStop route stop v) ?_
  rw [← listed_eq_getD, ← listed_eq_getD, hb.listed_eq, hc.listed_eq, h]

theorem Sound.all_congr : b.all = c.all := by
  rw [all, all, (hb.byVehicle_equiv hc h).values_eq]

theorem Sound.vehicleCount_congr : b.vehicleCount = c.vehicleCount :=
  (hb.byVehicle_equiv hc h).size_eq

end SameLists

/-- Lists of the same predictions, both soonest first, in which those of a vehicle come in the same
order. Left open is the order of predictions of different vehicles for one time. -/
structure SameButForTies (ps qs : List Prediction) : Prop where
  perm : ps.Perm qs
  left_sorted : ps.Pairwise fun p q => p.time ≤ q.time
  right_sorted : qs.Pairwise fun p q => p.time ≤ q.time
  share_eq : ∀ v : VehicleId, ps.filter (·.vehicle = v) = qs.filter (·.vehicle = v)

theorem SameButForTies.refl {ps : List Prediction}
    (h : ps.Pairwise fun p q => p.time ≤ q.time) : SameButForTies ps ps :=
  ⟨.refl ps, h, h, fun _ => rfl⟩

/-! ## Runs of changes -/

/-- A change of the board. -/
inductive Change where
  | replace (vehicle : VehicleId) (predictions : List Prediction)
  | remove (vehicle : VehicleId)
  deriving DecidableEq

namespace Change

/-- The vehicle whose predictions change. -/
def vehicle : Change → VehicleId
  | replace v _ => v
  | remove v => v

/-- The predictions that are in force for the vehicle afterwards. -/
def predictions : Change → List Prediction
  | replace _ new => new
  | remove _ => []

end Change

/-- The board after a change. -/
def change (b : Board) : Change → Board
  | .replace v new => b.replace v new
  | .remove v => b.remove v

/-- The board after a run of changes, the first one to an empty board. -/
def run (changes : List Change) : Board := changes.foldl change empty

/-- The predictions that a run of changes installed last for a vehicle, none if no change was
about it. -/
def installed (changes : List Change) (v : VehicleId) : List Prediction :=
  ((changes.reverse.find? fun c => c.vehicle = v).map Change.predictions).getD []

/-- The vehicles that a run of changes was about, each once. -/
def concerned (changes : List Change) : List VehicleId := (changes.map Change.vehicle).dedup

theorem change_eq_replace (b : Board) (c : Change) :
    b.change c = b.replace c.vehicle c.predictions := by
  cases c <;> rfl

theorem run_concat (changes : List Change) (c : Change) :
    run (changes ++ [c]) = (run changes).replace c.vehicle c.predictions := by
  rw [run, List.foldl_append, List.foldl_cons, List.foldl_nil, change_eq_replace, run]

theorem installed_concat (changes : List Change) (c : Change) (v : VehicleId) :
    installed (changes ++ [c]) v = if c.vehicle = v then c.predictions else installed changes v := by
  rw [installed, List.reverse_append, List.reverse_singleton, List.singleton_append,
    List.find?_cons]
  by_cases h : c.vehicle = v <;> simp [h, installed]

theorem mem_concerned_of_installed {changes : List Change} {v : VehicleId}
    (h : installed changes v ≠ []) : v ∈ concerned changes := by
  rw [concerned, List.mem_dedup, List.mem_map]
  cases hf : changes.reverse.find? fun c => c.vehicle = v with
  | none =>
    rw [installed, hf] at h
    exact absurd rfl h
  | some c =>
    exact ⟨c, List.mem_reverse.mp (List.mem_of_find?_eq_some hf), by simpa using List.find?_some hf⟩

/-- The tables agree after every run. -/
theorem sound_run (changes : List Change) : (run changes).Sound := by
  induction changes using List.reverseRecOn with
  | nil => exact sound_empty
  | append_singleton changes c ih =>
    rw [run_concat]
    exact ih.replace c.vehicle c.predictions

/-- After every run each vehicle has the predictions installed last for it. -/
theorem forVehicle_run (changes : List Change) (v : VehicleId) :
    (run changes).forVehicle v = installed changes v := by
  induction changes using List.reverseRecOn with
  | nil =>
    rw [run, List.foldl_nil, forVehicle, empty, Std.TreeMap.getElem?_emptyc]
    rfl
  | append_singleton changes c ih =>
    rw [run_concat, installed_concat, forVehicle_replace, ih]

/-- A board shows the predictions installed last for each vehicle. A replacement gives back what
was installed before for its vehicle, and leaves the predictions of every other vehicle where
they were. -/
theorem run_shows_installed (changes : List Change) :
    (run changes).Shows (concerned changes) (installed changes) ∧
      ∀ v new, ((run changes).swap v new).1 = installed changes v ∧
        ∀ w, w ≠ v →
          ((run changes).swap v new).2.forVehicle w = (run changes).forVehicle w ∧
            ∀ rs, ((run changes).swap v new).2.listed rs w = (run changes).listed rs w := by
  have hs := sound_run changes
  have hlists : (run changes).forVehicle = installed changes := funext (forVehicle_run changes)
  constructor
  · rw [← hlists]
    refine hs.shows (List.nodup_dedup _) ?_
    intro v hv
    rw [forVehicle_run] at hv
    exact mem_concerned_of_installed hv
  · intro v new
    refine ⟨forVehicle_run changes v, ?_⟩
    intro w hw
    constructor
    · exact (forVehicle_replace _ v new w).trans (if_neg hw.symm)
    · intro rs
      exact (listed_replace hs v new rs w).trans (if_neg hw.symm)

end Board

end NextStop
