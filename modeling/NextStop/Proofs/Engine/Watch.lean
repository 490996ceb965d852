import NextStop.Proofs.Engine.Steps

/-!
# Watched vehicles

A vehicle that is predictable is watched, and the watch has heard of it at the time of its latest
report or later, `Standing.Tracked`. A report is kept before it is heard, also when it is
rejected, and a sweep stops watching only what is not predictable, or is not any longer. So no
predictable vehicle ever escapes the sweeps.
-/

namespace NextStop

variable {α : Type}

/-- A predictable vehicle is watched, and no report of it is newer than what was heard. -/
def Standing.Tracked (x : Standing α) : Prop :=
  ∀ v : Vehicle α, x.known = some v → v.predictable = true →
    ∃ (r : Report α) (last : Int), v.lastReport = some r ∧ x.heard = some last ∧ r.time ≤ last

namespace Engine

theorem time_le_lastHeard {v : Vehicle α} {r : Report α} (hr : v.lastReport = some r)
    (watched : Int) : r.time ≤ lastHeard v watched := by
  rw [lastHeard, hr]
  exact Int.le_max_right _ _

/-- A predictable vehicle is kept or times out. -/
theorem verdict_of_predictable [Scalar α] (s : Settings α) {v : Vehicle α}
    (h : v.predictable = true) (last now : Int) :
    verdict s v last now = .keep ∨ ∃ cause, verdict s v last now = .timeOut cause := by
  have hscheduled : verdictScheduled s v now = .keep ∨
      ∃ cause, verdictScheduled s v now = .timeOut cause := by
    unfold verdictScheduled
    split
    · exact Or.inl rfl
    · split
      · exact Or.inr ⟨_, rfl⟩
      · exact Or.inl rfl
  have hsilent : verdictSilent s v last now = .keep ∨
      ∃ cause, verdictSilent s v last now = .timeOut cause := by
    unfold verdictSilent
    dsimp only
    split
    · exact Or.inr ⟨_, rfl⟩
    · split
      · split
        · exact Or.inr ⟨_, rfl⟩
        · split
          · exact Or.inl rfl
          · split
            · exact Or.inr ⟨_, rfl⟩
            · exact Or.inl rfl
      · exact Or.inr ⟨_, rfl⟩
  unfold verdict
  rw [h]
  simp only [Bool.not_true, Bool.false_eq_true, if_false]
  split
  · exact hscheduled
  · split
    · exact hsilent
    · exact Or.inl rfl

end Engine

namespace Standing

variable [Scalar α]

/-- A sweep leaves a predictable vehicle predictable exactly if it keeps it. -/
theorem predictable_sweep_iff {x : Standing α} {watched : Int} (hheard : x.heard = some watched)
    {v : Vehicle α} (hv : x.known = some v) (hpredictable : v.predictable = true)
    (s : Settings α) (now : Int) (id : VehicleId) :
    ((x.sweep s now).vehicle id).predictable = true ↔
      Engine.verdict s v (Engine.lastHeard v watched) now = .keep := by
  have hverdict := verdict?_of_heard hheard hv s now
  rcases Engine.verdict_of_predictable s hpredictable (Engine.lastHeard v watched) now with
    hkeep | ⟨cause, htimeOut⟩
  · simp [sweep, hverdict, hkeep, catchUp, vehicle, hv, hpredictable]
  · have hdemoted := known_sweep_of_timeOut (htimeOut ▸ hverdict) hv
    simp [vehicle, hdemoted, htimeOut, Vehicle.demote]

theorem Tracked.sweep {x : Standing α} (h : x.Tracked) (s : Settings α) (now : Int) :
    (x.sweep s now).Tracked := by
  intro v hv hpredictable
  rcases known_sweep s now x with ⟨-, hsame⟩ | ⟨u, cause, -, -, -, hdemoted⟩
  · have hbefore : x.known = some v := hsame ▸ hv
    have hafter : ((x.sweep s now).vehicle v.id).predictable = true := by
      simp [vehicle, hv, hpredictable]
    obtain ⟨r, last, hr, hlast, hle⟩ := h v hbefore hpredictable
    have hkeep := (predictable_sweep_iff hlast hbefore hpredictable s now v.id).mp hafter
    have hverdict := verdict?_of_heard hlast hbefore s now
    refine ⟨r, Engine.lastHeard v last, hr, ?_, Engine.time_le_lastHeard hr last⟩
    simp [Standing.sweep, hverdict, hkeep, catchUp, hlast, hbefore]
  · -- a vehicle that times out is not predictable
    rw [hdemoted] at hv
    obtain rfl := Option.some.inj hv
    contradiction

theorem Tracked.move {s : Settings α} {id : VehicleId} {x y : Standing α}
    {events : List StatusEvent} (h : x.Tracked) (hmove : Move s id x events y) : y.Tracked := by
  intro v hv hpredictable
  cases hmove with
  | rest => exact h v hv hpredictable
  | rejected r p t scheduleBased hout =>
    obtain ⟨lastEvent, hplace⟩ := (x.vehicle id).place_eq r p t
    obtain rfl := Option.some.inj hv
    exact ⟨r, _, by rw [hplace], rfl, Int.le_max_right _ _⟩
  | processed r p t scheduleBased w predictions listed headway hon hw hlisted =>
    obtain ⟨lastEvent, hplace⟩ := (x.vehicle id).place_eq r p t
    obtain rfl := Option.some.inj hv
    exact ⟨r, _, by rw [hw, hplace], rfl, Int.le_max_right _ _⟩
  | unplaced r hidle =>
    obtain rfl := Option.some.inj hv
    exact absurd (hidle.symm.trans hpredictable) Bool.false_ne_true
  | misplaced r w event hbefore hdemote =>
    obtain rfl := Option.some.inj hv
    obtain rfl : _ = w := congrArg Prod.fst hdemote
    contradiction
  | unassigned now w hknown =>
    obtain rfl := Option.some.inj hv
    contradiction
  | swept now => exact h.sweep s now v hv hpredictable

end Standing

namespace Engine

variable [Scalar α]

theorem tracked_performAll (settings : Settings α) (timetable : Timetable α)
    (journal : Journal α) (calls : List (Int × Call α)) (id : VehicleId) :
    (((start settings timetable journal).performAll calls).standing id).Tracked := by
  refine performAll_move_induction (P := fun _ x => x.Tracked) (fun h hmove => h.move hmove)
    (Filed.start settings timetable journal) rfl ?_ calls id
  intro id v hv
  rw [standing_start] at hv
  contradiction

/-- After every run of calls, rejected reports included, each predictable vehicle is watched; and
a sweep at any time leaves each vehicle that is still predictable watched, with a time at least as
late as that of its latest report. -/
theorem performAll_watches_predictable (settings : Settings α) (timetable : Timetable α)
    (journal : Journal α) (calls : List (Int × Call α)) :
    let e := (start settings timetable journal).performAll calls
    (∀ (id : VehicleId) (v : Vehicle α), e.vehicles[id]? = some v → v.predictable = true →
      id ∈ e.watch) ∧
    ∀ (now : Int) (id : VehicleId) (v : Vehicle α),
      (e.sweep now).2.vehicles[id]? = some v → v.predictable = true →
        ∃ (r : Report α) (last : Int), v.lastReport = some r ∧
          (e.sweep now).2.watch[id]? = some last ∧ r.time ≤ last := by
  intro e
  have htracked := tracked_performAll settings timetable journal calls
  have hfiled : e.Filed := (Filed.start settings timetable journal).performAll calls
  constructor
  · intro id v hv hpredictable
    obtain ⟨r, last, -, hlast, -⟩ := htracked id v hv hpredictable
    exact Table.mem_iff.mpr ⟨last, hlast⟩
  · intro now id v hv hpredictable
    have hswept : ((e.sweep now).2.standing id).Tracked := by
      rw [standing_sweep hfiled]
      exact (htracked id).sweep e.settings now
    exact hswept v hv hpredictable

/-- A trip that begins with a wait stop. -/
def crossing : Trip Rat where
  id := "crossing"
  route := "1"
  direction := none
  block := "block"
  service := "weekdays"
  frequencyBased := false
  start := 1000
  stopPaths := [⟨"pier", 0, 0, 1000, true, none⟩, ⟨"island", 60000, 0, 1060, false, none⟩]

/-- A ferry reports from the wait stop, and then from beyond the end of its trip. -/
def overrun : List (Int × Call Rat) :=
  let reported (time : Int) (index : Nat) (along : Rat) : Call Rat :=
    .report ⟨⟨"ferry", time, 0, 0, false⟩, some ⟨"crossing", "block", 0, index, along, 500⟩, false⟩
  [(700000, reported 700000 0 500), (710000, reported 710000 2 0)]

/-- The second report is rejected, but it was heard, and the ferry is still watched after a
sweep. -/
theorem performAll_watches_predictable_overrun :
    let e := (start .standard (.ofTrips [crossing]) (.kept #[])).performAll overrun
    (∃ v, e.vehicles["ferry"]? = some v ∧ v.predictable = true ∧ "ferry" ∈ e.watch) ∧
      ∃ v r last, (e.sweep 720000).2.vehicles["ferry"]? = some v ∧ v.predictable = true ∧
        v.lastReport = some r ∧ r.time = 710000 ∧
        (e.sweep 720000).2.watch["ferry"]? = some last ∧ r.time ≤ last := by
  intro e
  obtain ⟨hwatched, hswept⟩ :=
    performAll_watches_predictable .standard (.ofTrips [crossing]) (.kept #[]) overrun
  have hbefore : (e.vehicles["ferry"]?).map (·.predictable) = some true := by decide +kernel
  have hafter : ((e.sweep 720000).2.vehicles["ferry"]?).map (fun v =>
      (v.predictable, v.lastReport.map (·.time))) = some (true, some 710000) := by
    decide +kernel
  obtain ⟨v, hv, hpredictable⟩ := Option.map_eq_some_iff.mp hbefore
  obtain ⟨w, hw, hboth⟩ := Option.map_eq_some_iff.mp hafter
  obtain ⟨hstill, htime⟩ := Prod.mk.inj hboth
  obtain ⟨r, last, hr, hlast, hle⟩ := hswept 720000 "ferry" w hw hstill
  rw [hr, Option.map_some, Option.some.injEq] at htime
  exact ⟨⟨v, hv, hpredictable, hwatched "ferry" v hv hpredictable⟩,
    w, r, last, hw, hstill, hr, htime, hlast, hle⟩

end Engine

end NextStop
