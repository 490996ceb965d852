import NextStop.Board
import NextStop.Proofs.Table

/-!
# The two tables of the board

The board keeps every prediction twice: on the list of its vehicle, and on the list of its stop
under that vehicle. `Board.Sound` says that the second table is what the first one determines,
and that neither keeps anything empty. Striking a vehicle off a stop and entering a prediction
each change one list of the second table; replacing the predictions of a vehicle is a sequence
of such changes after which the tables agree again.
-/

namespace NextStop

namespace Board

/-- The predictions of a vehicle on the list of a stop. -/
def listed (b : Board) (rs : RouteStop) (v : VehicleId) : List Prediction :=
  ((b.byStop[rs]?).bind (·[v]?)).getD []

/-- No stop is kept without vehicles, and no vehicle at a stop without predictions. -/
structure Tidy (b : Board) : Prop where
  stop_ne : ∀ {rs : RouteStop} {m : Std.TreeMap VehicleId (List Prediction)},
    b.byStop[rs]? = some m → m.isEmpty = false
  list_ne : ∀ {rs : RouteStop} {m : Std.TreeMap VehicleId (List Prediction)} {v : VehicleId}
    {l : List Prediction}, b.byStop[rs]? = some m → m[v]? = some l → l ≠ []

/-- The list of a stop holds, for every vehicle, the predictions of that vehicle for the stop,
and nothing empty is kept. -/
structure Sound (b : Board) : Prop where
  vehicle_ne : ∀ {v : VehicleId} {l : List Prediction}, b.byVehicle[v]? = some l → l ≠ []
  tidy : b.Tidy
  listed_eq : ∀ rs v,
    b.listed rs v = (b.forVehicle v).filter fun p => RouteStop.ofPrediction p = rs

/-! ## Striking a vehicle off a stop -/

theorem byStop_strike (b : Board) (v : VehicleId) (rs rs' : RouteStop) :
    (b.strike v rs).byStop[rs']? =
      if rs = rs' then ((b.byStop[rs]?).map (·.erase v)).filter (!·.isEmpty)
      else b.byStop[rs']? := by
  rw [strike, Std.TreeMap.getElem?_alter]
  simp only [Std.LawfulEqCmp.compare_eq_iff_eq]

theorem listed_strike (b : Board) (v : VehicleId) (rs rs' : RouteStop) (w : VehicleId) :
    (b.strike v rs).listed rs' w = if rs = rs' ∧ v = w then [] else b.listed rs' w := by
  by_cases hrs : rs = rs'
  · subst hrs
    have herase : ∀ m : Std.TreeMap VehicleId (List Prediction),
        (m.erase v)[w]? = if v = w then none else m[w]? := by
      intro m
      rw [Std.TreeMap.getElem?_erase]
      simp only [Std.LawfulEqCmp.compare_eq_iff_eq]
    rw [listed, byStop_strike, if_pos rfl, Table.bind_filter_isEmpty, Option.bind_map, listed]
    simp only [Function.comp_def, herase, true_and]
    by_cases hvw : v = w
    · cases b.byStop[rs]? <;> simp [hvw]
    · simp [hvw]
  · rw [listed, byStop_strike, if_neg hrs, if_neg (by tauto), listed]

theorem Tidy.strike {b : Board} (h : b.Tidy) (v : VehicleId) (rs : RouteStop) :
    (b.strike v rs).Tidy where
  stop_ne {rs' m} hm := by
    rw [byStop_strike] at hm
    split at hm
    · obtain ⟨-, hne⟩ := Option.filter_eq_some_iff.mp hm
      simpa using hne
    · exact h.stop_ne hm
  list_ne {rs' m w l} hm hl := by
    rw [byStop_strike] at hm
    split at hm
    · obtain ⟨hm, -⟩ := Option.filter_eq_some_iff.mp hm
      obtain ⟨m', hm', rfl⟩ := Option.map_eq_some_iff.mp hm
      rw [Std.TreeMap.getElem?_erase] at hl
      split at hl
      · contradiction
      · exact h.list_ne hm' hl
    · exact h.list_ne hm hl

/-- After a vehicle is unlinked from its predictions, the stops of these no longer list it. -/
theorem listed_unlink (b : Board) (v : VehicleId) (old : List Prediction) (rs : RouteStop)
    (w : VehicleId) :
    (b.unlink v old).listed rs w =
      if (∃ p ∈ old, RouteStop.ofPrediction p = rs) ∧ v = w then [] else b.listed rs w := by
  induction old generalizing b with
  | nil => simp [unlink]
  | cons p old ih =>
    have hcons : b.unlink v (p :: old) = (b.strike v (RouteStop.ofPrediction p)).unlink v old :=
      rfl
    rw [hcons, ih, listed_strike]
    by_cases hv : v = w
    · by_cases hp : RouteStop.ofPrediction p = rs <;> simp [hv, hp]
    · simp [hv]

theorem Tidy.unlink {b : Board} (h : b.Tidy) (v : VehicleId) (old : List Prediction) :
    (b.unlink v old).Tidy := by
  induction old generalizing b with
  | nil => exact h
  | cons p old ih => exact ih (h.strike v _)

/-! ## Entering a prediction -/

theorem byStop_enter (b : Board) (v : VehicleId) (p : Prediction) (rs : RouteStop) :
    (b.enter v p).byStop[rs]? =
      if RouteStop.ofPrediction p = rs then
        some (((b.byStop[RouteStop.ofPrediction p]?).getD ∅).alter v
          fun list => some (list.getD [] ++ [p]))
      else b.byStop[rs]? := by
  rw [enter, Std.TreeMap.getElem?_alter]
  simp only [Std.LawfulEqCmp.compare_eq_iff_eq]

theorem listed_enter (b : Board) (v : VehicleId) (p : Prediction) (rs : RouteStop)
    (w : VehicleId) :
    (b.enter v p).listed rs w =
      if RouteStop.ofPrediction p = rs ∧ v = w then b.listed rs w ++ [p]
      else b.listed rs w := by
  by_cases hrs : RouteStop.ofPrediction p = rs
  · subst hrs
    rw [listed, byStop_enter, if_pos rfl, Option.bind_some, Std.TreeMap.getElem?_alter, listed]
    simp only [Std.LawfulEqCmp.compare_eq_iff_eq, true_and]
    by_cases hvw : v = w
    · subst hvw
      rw [if_pos rfl, if_pos rfl, Table.getElem?_getD_empty, Option.getD_some]
    · rw [if_neg hvw, if_neg hvw, Table.getElem?_getD_empty]
  · rw [listed, byStop_enter, if_neg hrs, if_neg (by tauto), listed]

theorem Tidy.enter {b : Board} (h : b.Tidy) (v : VehicleId) (p : Prediction) :
    (b.enter v p).Tidy where
  stop_ne {rs m} hm := by
    rw [byStop_enter] at hm
    split at hm
    · obtain rfl := Option.some.inj hm
      simp
    · exact h.stop_ne hm
  list_ne {rs m w l} hm hl := by
    rw [byStop_enter] at hm
    split at hm
    · obtain rfl := Option.some.inj hm
      rw [Std.TreeMap.getElem?_alter] at hl
      split at hl
      · obtain rfl := Option.some.inj hl
        simp
      · cases hs : b.byStop[RouteStop.ofPrediction p]? with
        | none =>
          rw [hs, Option.getD_none, Std.TreeMap.getElem?_emptyc] at hl
          contradiction
        | some m =>
          rw [hs, Option.getD_some] at hl
          exact h.list_ne hs hl
    · exact h.list_ne hm hl

/-- Linking adds the predictions for a stop, in their order, to the list of that stop. -/
theorem listed_link (b : Board) (v : VehicleId) (new : List Prediction) (rs : RouteStop)
    (w : VehicleId) :
    (b.link v new).listed rs w =
      b.listed rs w ++
        if v = w then new.filter fun p => RouteStop.ofPrediction p = rs else [] := by
  induction new generalizing b with
  | nil => simp [link]
  | cons p new ih =>
    have hcons : b.link v (p :: new) = (b.enter v p).link v new := rfl
    rw [hcons, ih, listed_enter]
    by_cases hv : v = w
    · by_cases hp : RouteStop.ofPrediction p = rs <;> simp [hv, hp]
    · simp [hv]

theorem Tidy.link {b : Board} (h : b.Tidy) (v : VehicleId) (new : List Prediction) :
    (b.link v new).Tidy := by
  induction new generalizing b with
  | nil => exact h
  | cons p new ih => exact ih (h.enter v p)

/-! ## Replacing the predictions of a vehicle -/

/-- Unlinking and linking leave the table by vehicle alone. -/
theorem byVehicle_link_unlink (b : Board) (v : VehicleId) (old new : List Prediction) :
    ((b.unlink v old).link v new).byVehicle = b.byVehicle := by
  have hunlink : (b.unlink v old).byVehicle = b.byVehicle := by
    induction old generalizing b with
    | nil => rfl
    | cons p old ih => exact ih (b.strike v _)
  rw [← hunlink]
  generalize b.unlink v old = c
  induction new generalizing c with
  | nil => rfl
  | cons p new ih => exact ih (c.enter v p)

theorem byVehicle_replace (b : Board) (v : VehicleId) (new : List Prediction) (w : VehicleId) :
    (b.replace v new).byVehicle[w]? =
      if v = w then (if new = [] then none else some new) else b.byVehicle[w]? := by
  have hb : (b.replace v new).byVehicle =
      if new.isEmpty then b.byVehicle.erase v else b.byVehicle.insert v new := by
    rw [replace, swap, byVehicle_link_unlink]
  rw [hb]
  cases new with
  | nil =>
    rw [List.isEmpty_nil, if_pos rfl, Std.TreeMap.getElem?_erase, if_pos rfl]
    simp only [Std.LawfulEqCmp.compare_eq_iff_eq]
  | cons p new =>
    rw [List.isEmpty_cons, if_neg Bool.false_ne_true, Std.TreeMap.getElem?_insert,
      if_neg (List.cons_ne_nil p new)]
    simp only [Std.LawfulEqCmp.compare_eq_iff_eq]

/-- A replacement changes the predictions of its vehicle and of no other one. -/
theorem forVehicle_replace (b : Board) (v : VehicleId) (new : List Prediction) (w : VehicleId) :
    (b.replace v new).forVehicle w = if v = w then new else b.forVehicle w := by
  rw [forVehicle, byVehicle_replace]
  by_cases hv : v = w
  · by_cases hn : new = [] <;> simp [hv, hn]
  · rw [if_neg hv, if_neg hv, forVehicle]

theorem listed_replace {b : Board} (h : b.Sound) (v : VehicleId) (new : List Prediction)
    (rs : RouteStop) (w : VehicleId) :
    (b.replace v new).listed rs w =
      if v = w then new.filter fun p => RouteStop.ofPrediction p = rs else b.listed rs w := by
  have hl : (b.replace v new).listed rs w =
      ((b.unlink v (b.forVehicle v)).link v new).listed rs w := rfl
  rw [hl, listed_link, listed_unlink]
  by_cases hv : v = w
  · subst hv
    rw [if_pos rfl, if_pos rfl]
    by_cases hp : ∃ p ∈ b.forVehicle v, RouteStop.ofPrediction p = rs
    · rw [if_pos ⟨hp, rfl⟩, List.nil_append]
    · -- a stop that no old prediction is for did not list the vehicle
      have hnone : b.listed rs v = [] := by
        rw [h.listed_eq, List.filter_eq_nil_iff]
        intro p hm hq
        exact hp ⟨p, hm, of_decide_eq_true hq⟩
      rw [if_neg (fun hc => hp hc.1), hnone, List.nil_append]
  · rw [if_neg hv, if_neg hv, List.append_nil, if_neg (by tauto)]

theorem sound_empty : empty.Sound where
  vehicle_ne {v l} h := by
    rw [empty, Std.TreeMap.getElem?_emptyc] at h
    contradiction
  tidy := {
    stop_ne := by
      intro rs m h
      rw [empty, Std.TreeMap.getElem?_emptyc] at h
      contradiction
    list_ne := by
      intro rs m v l h
      rw [empty, Std.TreeMap.getElem?_emptyc] at h
      contradiction }
  listed_eq rs v := by
    rw [listed, forVehicle, empty, Std.TreeMap.getElem?_emptyc, Std.TreeMap.getElem?_emptyc]
    rfl

/-- Replacing the predictions of a vehicle keeps the tables in agreement. -/
theorem Sound.replace {b : Board} (h : b.Sound) (v : VehicleId) (new : List Prediction) :
    (b.replace v new).Sound where
  vehicle_ne {w l} hl := by
    rw [byVehicle_replace] at hl
    split at hl
    · split at hl
      · contradiction
      · obtain rfl := Option.some.inj hl
        assumption
    · exact h.vehicle_ne hl
  tidy := by
    have ht := (h.tidy.unlink v (b.forVehicle v)).link v new
    exact ⟨ht.stop_ne, ht.list_ne⟩
  listed_eq rs w := by
    rw [listed_replace h, forVehicle_replace]
    split
    · rfl
    · exact h.listed_eq rs w

end Board

end NextStop
