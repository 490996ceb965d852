import NextStop.Proofs.Board.Agreement
import NextStop.Proofs.Engine.Calls

/-!
# The standing of a vehicle

An engine keeps four things on a vehicle: what is known of it, the time of its latest report
while it is watched, what the public sees of it, and its predictions on the board.
`Engine.standing` reads them together. Every operation on the state of an engine changes the
standing of one vehicle, and is stated here as an operation on standings.

So a sweep, which goes over a table of vehicles, is a function of single standings: it does the
same to each of them, whatever the others are, `Engine.standing_sweep`.
-/

namespace NextStop

/-- What an engine has on one vehicle. -/
structure Standing (α : Type) where
  /-- What is known of the vehicle. -/
  known : Option (Vehicle α)
  /-- The time of its latest report, while it is watched. -/
  heard : Option Int
  /-- What the public sees of it. -/
  shown : Option (Snapshot α)
  /-- Its predictions on the board. -/
  listed : List Prediction

namespace Standing

variable {α : Type}

/-- The vehicle that goes by a name; one of which nothing is known if there is none. -/
def vehicle (x : Standing α) (id : VehicleId) : Vehicle α := x.known.getD (.unknown id)

theorem vehicle_id {x : Standing α} {id : VehicleId} (h : ∀ v, x.known = some v → v.id = id) :
    (x.vehicle id).id = id := by
  rw [vehicle]
  cases hknown : x.known with
  | none => rfl
  | some v => exact h v hknown

/-- Keeps what is known of the vehicle. -/
def keep (x : Standing α) (v : Vehicle α) : Standing α := { x with known := some v }

/-- Watches the vehicle from a report on. -/
def hear (x : Standing α) (time : Int) : Standing α :=
  { x with heard := some (max (x.heard.getD time) time) }

/-- Stops watching the vehicle. -/
def unwatch (x : Standing α) : Standing α := { x with heard := none }

/-- Shows the vehicle to the public, if it has reported. -/
def publish (x : Standing α) (v : Vehicle α) : Standing α :=
  { x with shown := v.snapshot?.or x.shown }

/-- Takes the vehicle off the public map. -/
def unpublish (x : Standing α) : Standing α := { x with shown := none }

/-- The standing of a vehicle once it was demoted to `v`. -/
def demote (x : Standing α) (v : Vehicle α) : Standing α :=
  ({ x with listed := [] }.publish v).keep v

/-- The standing of a vehicle that timed out. -/
def timeOut (s : Settings α) (now : Int) (v : Vehicle α) (cause : TimeoutCause) (x : Standing α) :
    Standing α :=
  let y := (x.demote (v.demote .timeout cause.description now).1).unwatch
  if s.dropTimedOut then y.unpublish else y

/-- Hears of the latest report, if the vehicle is watched. -/
def catchUp (x : Standing α) : Standing α := { x with
  heard := x.heard.map fun watched => x.known.elim watched (Engine.lastHeard · watched) }

variable [Scalar α]

/-- What a sweep decides for a vehicle, if it is watched; one that is not known is forgotten. -/
def verdict? (s : Settings α) (now : Int) (x : Standing α) : Option Verdict :=
  x.heard.map fun watched => x.known.elim .forget fun v =>
    Engine.verdict s v (Engine.lastHeard v watched) now

/-- The standing of a vehicle after a sweep. -/
def sweep (s : Settings α) (now : Int) (x : Standing α) : Standing α :=
  match x.verdict? s now with
  | none => x
  | some .keep => x.catchUp
  | some .forget => x.unwatch
  | some .evict => x.unwatch.unpublish
  | some (.timeOut cause) => x.known.elim x fun v => x.timeOut s now v cause

/-- The event of a sweep in which the vehicle times out. -/
def timeoutEvent? (s : Settings α) (now : Int) (x : Standing α) : Option StatusEvent :=
  match x.verdict? s now with
  | some (.timeOut cause) => x.known.map fun v => (v.demote .timeout cause.description now).2
  | _ => none

theorem verdict?_of_heard {x : Standing α} {watched : Int} (hheard : x.heard = some watched)
    {v : Vehicle α} (hv : x.known = some v) (s : Settings α) (now : Int) :
    x.verdict? s now = some (Engine.verdict s v (Engine.lastHeard v watched) now) := by
  simp only [verdict?, hheard, hv, Option.map_some, Option.elim_some]

/-- A vehicle that times out is demoted. -/
theorem known_sweep_of_timeOut {s : Settings α} {now : Int} {x : Standing α} {cause : TimeoutCause}
    {v : Vehicle α} (hverdict : x.verdict? s now = some (.timeOut cause))
    (hv : x.known = some v) :
    (x.sweep s now).known = some (v.demote .timeout cause.description now).1 := by
  simp only [sweep, hverdict, hv, Option.elim_some, timeOut]
  split <;> rfl

/-- A sweep leaves a vehicle as it is and has no event, or demotes it. -/
theorem known_sweep (s : Settings α) (now : Int) (x : Standing α) :
    x.timeoutEvent? s now = none ∧ (x.sweep s now).known = x.known ∨
      ∃ v cause, x.verdict? s now = some (.timeOut cause) ∧ x.known = some v ∧
        x.timeoutEvent? s now = some (v.demote .timeout cause.description now).2 ∧
        (x.sweep s now).known = some (v.demote .timeout cause.description now).1 := by
  rcases hverdict : x.verdict? s now with _ | _ | _ | _ | cause
  · exact Or.inl (by simp [timeoutEvent?, sweep, hverdict])
  · exact Or.inl (by simp [timeoutEvent?, sweep, hverdict, catchUp])
  · exact Or.inl (by simp [timeoutEvent?, sweep, hverdict, unwatch])
  · exact Or.inl (by simp [timeoutEvent?, sweep, hverdict, unwatch, unpublish])
  · cases hknown : x.known with
    | none => exact Or.inl (by simp [timeoutEvent?, sweep, hverdict, hknown])
    | some v =>
      exact Or.inr ⟨v, cause, rfl, rfl, by simp [timeoutEvent?, hverdict, hknown],
        known_sweep_of_timeOut hverdict hknown⟩

end Standing

namespace Engine

variable {α : Type}

/-- What an engine has on the vehicle of a name. -/
def standing (e : Engine α) (id : VehicleId) : Standing α :=
  ⟨e.vehicles[id]?, e.watch[id]?, e.live[id]?, e.board.forVehicle id⟩

/-- Every vehicle is kept under its own name. -/
def Filed (e : Engine α) : Prop := ∀ (id : VehicleId) (v : Vehicle α),
  e.vehicles[id]? = some v → v.id = id

theorem Filed.vehicle_id {e : Engine α} (h : e.Filed) (id : VehicleId) :
    (e.vehicle id).id = id :=
  (e.standing id).vehicle_id (h id)

/-! ## Operations on the state -/

theorem standing_keep (e : Engine α) (v : Vehicle α) (id : VehicleId) :
    (e.keep v).standing id = if v.id = id then (e.standing id).keep v else e.standing id := by
  simp only [standing, keep, Std.TreeMap.getElem?_insert, Std.LawfulEqCmp.compare_eq_iff_eq]
  split <;> rfl

theorem standing_watchFrom (e : Engine α) (id : VehicleId) (time : Int) (other : VehicleId) :
    (e.watchFrom id time).standing other =
      if id = other then (e.standing other).hear time else e.standing other := by
  simp only [standing, watchFrom, Std.TreeMap.getElem?_alter, Std.LawfulEqCmp.compare_eq_iff_eq]
  split
  · rename_i h
    subst h
    rfl
  · rfl

theorem standing_unwatch (e : Engine α) (id other : VehicleId) :
    (e.unwatch id).standing other =
      if id = other then (e.standing other).unwatch else e.standing other := by
  simp only [standing, unwatch, Std.TreeMap.getElem?_erase, Std.LawfulEqCmp.compare_eq_iff_eq]
  split <;> rfl

theorem standing_unpublish (e : Engine α) (id other : VehicleId) :
    (e.unpublish id).standing other =
      if id = other then (e.standing other).unpublish else e.standing other := by
  simp only [standing, unpublish, Std.TreeMap.getElem?_erase, Std.LawfulEqCmp.compare_eq_iff_eq]
  split <;> rfl

theorem standing_publish (e : Engine α) (v : Vehicle α) (id : VehicleId) :
    (e.publish v).standing id =
      if v.id = id then (e.standing id).publish v else e.standing id := by
  rw [publish]
  cases hs : v.snapshot? with
  | none =>
    have hsame : (e.standing id).publish v = e.standing id := by
      rw [Standing.publish, hs, Option.none_or]
    rw [hsame, ite_self]
  | some s =>
    simp only [standing, Std.TreeMap.getElem?_insert, Std.LawfulEqCmp.compare_eq_iff_eq]
    split
    · rw [Standing.publish, hs, Option.some_or]
    · rfl

theorem standing_replace (e : Engine α) (v : VehicleId) (predictions : List Prediction)
    (id : VehicleId) :
    ({ e with board := e.board.replace v predictions } : Engine α).standing id =
      if v = id then { e.standing id with listed := predictions } else e.standing id := by
  simp only [standing, Board.forVehicle_replace]
  split <;> rfl

/-- A demoted vehicle has no predictions left, and the public sees that. -/
theorem standing_afterDemotion_keep (e : Engine α) (v : Vehicle α) (event : StatusEvent)
    (id : VehicleId) :
    ((e.afterDemotion v event).keep v).standing id =
      if v.id = id then (e.standing id).demote v else e.standing id := by
  have hremove : (({ e with board := e.board.remove v.id } : Engine α).record
      (.status event)).standing id =
      if v.id = id then { e.standing id with listed := [] } else e.standing id :=
    e.standing_replace v.id [] id
  rw [standing_keep, afterDemotion, standing_publish, hremove]
  split <;> rfl

/-! ## Sweeps -/

theorem standing_timeOut (e : Engine α) (now : Int) (v : Vehicle α) (cause : TimeoutCause)
    (id : VehicleId) :
    (e.timeOut now v cause).2.standing id =
      if v.id = id then (e.standing id).timeOut e.settings now v cause else e.standing id := by
  have hid : (v.demote .timeout cause.description now).1.id = v.id := rfl
  have hsettings : (((e.afterDemotion (v.demote .timeout cause.description now).1
      (v.demote .timeout cause.description now).2).keep
      (v.demote .timeout cause.description now).1).unwatch v.id).settings = e.settings :=
    (e.sameBasis_afterDemotion _ _).settings
  rw [timeOut]
  dsimp only
  rw [hid, hsettings]
  cases hdrop : e.settings.dropTimedOut
  · simp only [Bool.false_eq_true, if_false, standing_unwatch, standing_afterDemotion_keep, hid,
      Standing.timeOut, hdrop]
    split <;> rfl
  · simp only [if_true, standing_unpublish, standing_unwatch, standing_afterDemotion_keep, hid,
      Standing.timeOut, hdrop]
    split <;> rfl

variable [Scalar α]

omit [Scalar α] in
theorem le_lastHeard (v : Vehicle α) (watched : Int) : watched ≤ lastHeard v watched := by
  unfold lastHeard
  split
  · exact Int.le_max_left _ _
  · exact Int.le_refl _

/-- The sweep of one watched vehicle is a sweep of its standing. -/
theorem standing_sweepOne {e : Engine α} (hfiled : e.Filed) (now : Int) {id : VehicleId}
    {watched : Int} (hw : e.watch[id]? = some watched) (other : VehicleId) :
    (e.sweepOne now id watched).2.standing other =
      if id = other then (e.standing other).sweep e.settings now else e.standing other := by
  have hself : ∀ f : Standing α → Standing α,
      f (e.standing id) = (e.standing id).sweep e.settings now →
      (if id = other then f (e.standing other) else e.standing other) =
        if id = other then (e.standing other).sweep e.settings now else e.standing other := by
    intro f hf
    split
    · rename_i hother
      subst hother
      exact hf
    · rfl
  rw [sweepOne]
  cases hv : e.vehicles[id]? with
  | none =>
    dsimp only
    rw [standing_unwatch]
    refine hself _ ?_
    simp [Standing.sweep, Standing.verdict?, standing, hw, hv]
  | some v =>
    have hid : v.id = id := hfiled id v hv
    have hknown : (e.standing id).known = some v := hv
    have hheard : (e.standing id).heard = some watched := hw
    have hverdict := (e.standing id).verdict?_of_heard hheard hknown e.settings now
    dsimp only
    cases hdecided : verdict e.settings v (lastHeard v watched) now with
    | keep =>
      have hlatest := le_lastHeard v watched
      dsimp only
      rw [standing_watchFrom]
      refine hself (Standing.hear · _) ?_
      simp [Standing.sweep, hverdict, hdecided, Standing.hear, Standing.catchUp, hheard, hknown,
        Int.max_eq_right hlatest]
    | forget =>
      dsimp only
      rw [standing_unwatch]
      refine hself _ ?_
      simp [Standing.sweep, hverdict, hdecided]
    | evict =>
      have htwice : ((e.unwatch id).unpublish id).standing other =
          if id = other then (e.standing other).unwatch.unpublish else e.standing other := by
        rw [standing_unpublish, standing_unwatch]
        split <;> rfl
      dsimp only
      rw [htwice]
      refine hself (fun x => x.unwatch.unpublish) ?_
      simp [Standing.sweep, hverdict, hdecided]
    | timeOut cause =>
      dsimp only
      rw [standing_timeOut, hid]
      refine hself _ ?_
      simp [Standing.sweep, hverdict, hdecided, hknown]

/-- The event of the sweep of one watched vehicle. -/
theorem event_sweepOne (e : Engine α) (now : Int) {id : VehicleId} {watched : Int}
    (hw : e.watch[id]? = some watched) :
    (e.sweepOne now id watched).1 = (e.standing id).timeoutEvent? e.settings now := by
  rw [sweepOne, Standing.timeoutEvent?]
  cases hv : e.vehicles[id]? with
  | none => simp [Standing.verdict?, standing, hw, hv]
  | some v =>
    rw [(e.standing id).verdict?_of_heard hw hv]
    dsimp only
    cases verdict e.settings v (lastHeard v watched) now with
    | keep => rfl
    | forget => rfl
    | evict => rfl
    | timeOut cause => simp [timeOut, standing, hv]

/-- A list of watched vehicles, each of them once and with the time that it was last heard of. -/
structure Watches (e : Engine α) (watched : List (VehicleId × Int)) : Prop where
  nodup : (watched.map Prod.fst).Nodup
  heard : ∀ w ∈ watched, e.watch[w.1]? = some w.2

omit [Scalar α] in
theorem watches_toList (e : Engine α) : e.Watches e.watch.toList where
  nodup := by
    rw [Std.TreeMap.map_fst_toList_eq_keys]
    exact Std.TreeMap.nodup_keys
  heard w hw := Std.TreeMap.mem_toList_iff_getElem?_eq_some.mp hw

theorem Filed.sweepOne {e : Engine α} (h : e.Filed) (now : Int) {id : VehicleId} {watched : Int}
    (hw : e.watch[id]? = some watched) : (e.sweepOne now id watched).2.Filed := by
  intro other v hv
  have hstanding := standing_sweepOne h now hw other
  replace hv : ((e.sweepOne now id watched).2.standing other).known = some v := hv
  rw [hstanding] at hv
  split at hv
  · rcases Standing.known_sweep e.settings now (e.standing other) with
      ⟨-, hsame⟩ | ⟨u, cause, -, hu, -, hdemoted⟩
    · rw [hsame] at hv
      exact h other v hv
    · rw [hdemoted] at hv
      obtain rfl := Option.some.inj hv
      exact h other u hu
  · exact h other v hv

/-- Once the first of the watched vehicles is swept, the others are still watched. -/
theorem Watches.tail {e : Engine α} (hfiled : e.Filed) (now : Int) {id : VehicleId}
    {watched : Int} {rest : List (VehicleId × Int)} (h : e.Watches ((id, watched) :: rest)) :
    (e.sweepOne now id watched).2.Watches rest where
  nodup := (List.nodup_cons.mp h.nodup).2
  heard w hw := by
    have hne : id ≠ w.1 := by
      intro heq
      exact (List.nodup_cons.mp h.nodup).1 (List.mem_map.mpr ⟨w, hw, heq.symm⟩)
    have hsame := standing_sweepOne hfiled now (h.heard _ List.mem_cons_self) w.1
    rw [if_neg hne] at hsame
    exact (congrArg Standing.heard hsame).trans (h.heard w (List.mem_cons_of_mem _ hw))

theorem standing_sweepAll {e : Engine α} (hfiled : e.Filed) (now : Int)
    {watched : List (VehicleId × Int)} (h : e.Watches watched) (id : VehicleId) :
    (sweepAll now watched e).2.standing id =
      if id ∈ watched.map Prod.fst then (e.standing id).sweep e.settings now
      else e.standing id := by
  induction watched generalizing e with
  | nil => simp [sweepAll]
  | cons w rest ih =>
    have hw : e.watch[w.1]? = some w.2 := h.heard w List.mem_cons_self
    have hone := standing_sweepOne hfiled now hw id
    have hrest := ih (hfiled.sweepOne now hw) (h.tail hfiled now)
    have hnot := (List.nodup_cons.mp h.nodup).1
    rw [sweepAll]
    dsimp only
    rw [hrest, hone, (sameBasis_sweepOne _ _ _ _).settings, List.map_cons]
    by_cases hid : w.1 = id
    · subst hid
      rw [if_neg hnot, if_pos rfl, if_pos List.mem_cons_self]
    · rw [if_neg hid]
      simp only [List.mem_cons, Ne.symm hid, false_or]

omit [Scalar α] in
theorem mem_watched_iff (e : Engine α) (id : VehicleId) :
    id ∈ e.watch.toList.map Prod.fst ↔ (e.standing id).heard ≠ none := by
  rw [Std.TreeMap.map_fst_toList_eq_keys, Std.TreeMap.mem_keys,
    Std.TreeMap.mem_iff_isSome_getElem?, Option.isSome_iff_ne_none]
  rfl

/-- The events of a sweep, in the order of the watched vehicles. -/
theorem events_sweepAll {e : Engine α} (hfiled : e.Filed) (now : Int)
    {watched : List (VehicleId × Int)} (h : e.Watches watched) :
    (sweepAll now watched e).1 =
      watched.filterMap fun w => (e.standing w.1).timeoutEvent? e.settings now := by
  induction watched generalizing e with
  | nil => rfl
  | cons w rest ih =>
    have hw : e.watch[w.1]? = some w.2 := h.heard w List.mem_cons_self
    have hrest : rest.filterMap (fun u =>
          ((e.sweepOne now w.1 w.2).2.standing u.1).timeoutEvent? e.settings now) =
        rest.filterMap fun u => (e.standing u.1).timeoutEvent? e.settings now := by
      apply List.filterMap_congr
      intro u hu
      have hne : w.1 ≠ u.1 := by
        intro heq
        exact (List.nodup_cons.mp h.nodup).1 (List.mem_map.mpr ⟨u, hu, heq.symm⟩)
      rw [standing_sweepOne hfiled now hw u.1, if_neg hne]
    rw [sweepAll]
    dsimp only
    rw [ih (hfiled.sweepOne now hw) (h.tail hfiled now), (sameBasis_sweepOne _ _ _ _).settings,
      hrest, event_sweepOne e now hw, List.filterMap_cons]
    cases (e.standing w.1).timeoutEvent? e.settings now <;> rfl

/-- A sweep does the same to the standing of every vehicle, on its own. -/
theorem standing_sweep {e : Engine α} (hfiled : e.Filed) (now : Int) (id : VehicleId) :
    (e.sweep now).2.standing id = (e.standing id).sweep e.settings now := by
  rw [sweep, standing_sweepAll hfiled now e.watches_toList]
  split
  · rfl
  · rename_i hunwatched
    have hheard : (e.standing id).heard = none := by
      rwa [mem_watched_iff, not_not] at hunwatched
    simp [Standing.sweep, Standing.verdict?, hheard]

/-- The events of a sweep are the timeouts of the single vehicles, in the order of their names. -/
theorem events_sweep {e : Engine α} (hfiled : e.Filed) (now : Int) :
    (e.sweep now).1 =
      e.watch.toList.filterMap fun w => (e.standing w.1).timeoutEvent? e.settings now :=
  events_sweepAll hfiled now e.watches_toList

end Engine

end NextStop
