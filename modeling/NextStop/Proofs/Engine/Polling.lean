import NextStop.Proofs.Board.Installed
import NextStop.Proofs.Engine.Watch

/-!
# Polling

How often a fleet is swept does not matter. A verdict that ends the watch of a vehicle stays as
the clock goes on, `Engine.verdict_firm`: a vehicle that one sweep lets go is let go by every later
sweep that still finds it watched, in the same way. So sweeps in between leave of every vehicle
what the last of them would leave on its own, but for the time and the wording of a timeout,
`Standing.sweep_sweep`.
-/

namespace NextStop

/-- What may become of a verdict while nothing is heard of the vehicle: a vehicle that was kept may
meet any verdict later, and every other verdict stays, with spans that grow. -/
inductive Verdict.Firm : Verdict → Verdict → Prop
  | keep (later : Verdict) : Firm .keep later
  | forget : Firm .forget .forget
  | evict : Firm .evict .evict
  | timeOut (cause later : TimeoutCause) : Firm (.timeOut cause) (.timeOut later)

namespace Engine

variable {α : Type} [Scalar α] {now later : Int}

omit [Scalar α] in
theorem isSilent_mono (s : Settings α) (last : Int) (hle : now ≤ later)
    (h : isSilent s last now = true) : isSilent s last later = true := by
  simp only [isSilent, decide_eq_true_eq] at h ⊢
  omega

omit [Scalar α] in
theorem verdictIdle_firm (s : Settings α) (last : Int) (hle : now ≤ later) :
    Verdict.Firm (verdictIdle s last now) (verdictIdle s last later) := by
  unfold verdictIdle
  cases s.dropTimedOut with
  | false => exact .forget
  | true =>
    cases hsilent : isSilent s last now with
    | false => exact .keep _
    | true =>
      rw [isSilent_mono s last hle hsilent]
      exact .evict

omit [Scalar α] in
theorem verdictScheduled_firm (s : Settings α) (v : Vehicle α) (hle : now ≤ later) :
    Verdict.Firm (verdictScheduled s v now) (verdictScheduled s v later) := by
  unfold verdictScheduled
  split
  · exact .keep _
  · rename_i departure _
    by_cases hdue : Time.later departure (Span.ofSeconds s.scheduleGrace) < now
    · rw [if_pos hdue, if_pos (by omega)]
      exact .timeOut _ _
    · rw [if_neg hdue]
      exact .keep _

theorem verdictSilent_firm (s : Settings α) (v : Vehicle α) (last : Int) (hle : now ≤ later) :
    Verdict.Firm (verdictSilent s v last now) (verdictSilent s v last later) := by
  unfold verdictSilent
  dsimp only
  split
  · exact .timeOut _ _
  · split
    · split
      · exact .timeOut _ _
      · split
        · exact .keep _
        · rename_i departure _
          by_cases hdue : Time.later departure (Span.ofSeconds s.waitStopGrace) < now
          · rw [if_pos hdue, if_pos (by omega)]
            exact .timeOut _ _
          · rw [if_neg hdue]
            exact .keep _
    · exact .timeOut _ _

/-- A verdict that ends the watch of a vehicle stays as the clock goes on. -/
theorem verdict_firm (s : Settings α) (v : Vehicle α) (last : Int) (hle : now ≤ later) :
    Verdict.Firm (verdict s v last now) (verdict s v last later) := by
  unfold verdict
  split
  · exact verdictIdle_firm s last hle
  · split
    · exact verdictScheduled_firm s v hle
    · cases hsilent : isSilent s last now with
      | false => exact .keep _
      | true =>
        rw [isSilent_mono s last hle hsilent]
        exact verdictSilent_firm s v last hle

omit [Scalar α] in
/-- Nothing newer than the latest report is heard of a vehicle by asking again. -/
theorem lastHeard_lastHeard (v : Vehicle α) (watched : Int) :
    lastHeard v (lastHeard v watched) = lastHeard v watched := by
  cases hreport : v.lastReport with
  | none => simp [lastHeard, hreport]
  | some r => simp [lastHeard, hreport]

end Engine

/-! ## Two sweeps -/

namespace Standing

variable {α : Type}

/-- The standing without the time and the wording of the last change of status. -/
def outline (x : Standing α) : Standing α := { x with
  known := x.known.map fun v => { v with
    lastEvent := v.lastEvent.map fun ev => { ev with
      time := 0
      description := "" } } }

theorem predictable_outline (x : Standing α) (id : VehicleId) :
    (x.outline.vehicle id).predictable = (x.vehicle id).predictable := by
  cases hknown : x.known with
  | none => simp [outline, vehicle, hknown]
  | some v => simp [outline, vehicle, hknown]

theorem kind_outline (x : Standing α) (id : VehicleId) :
    (x.outline.vehicle id).lastEvent.map (·.kind) = (x.vehicle id).lastEvent.map (·.kind) := by
  cases hknown : x.known with
  | none => simp [outline, vehicle, hknown]
  | some v => simp [outline, vehicle, hknown, Function.comp_def]

theorem catchUp_of_unheard {x : Standing α} (h : x.heard = none) : x.catchUp = x := by
  cases x
  subst h
  rfl

theorem catchUp_catchUp (x : Standing α) : x.catchUp.catchUp = x.catchUp := by
  cases hheard : x.heard with
  | none => simp [catchUp, hheard]
  | some watched =>
    cases hknown : x.known with
    | none => simp [catchUp, hheard, hknown]
    | some v => simp [catchUp, hheard, hknown, Engine.lastHeard_lastHeard]

theorem outline_timeOut (s : Settings α) (now later : Int) (v : Vehicle α)
    (cause cause' : TimeoutCause) (x : Standing α) :
    (x.timeOut s now v cause).outline = (x.timeOut s later v cause').outline := by
  unfold timeOut
  dsimp only
  split <;> rfl

theorem heard_timeOut (s : Settings α) (now : Int) (v : Vehicle α) (cause : TimeoutCause)
    (x : Standing α) : (x.timeOut s now v cause).heard = none := by
  unfold timeOut
  dsimp only
  split <;> rfl

variable [Scalar α]

theorem sweep_of_unheard {x : Standing α} (h : x.heard = none) (s : Settings α) (now : Int) :
    x.sweep s now = x := by
  simp [sweep, verdict?, h]

theorem verdict?_catchUp (s : Settings α) (now : Int) (x : Standing α) :
    x.catchUp.verdict? s now = x.verdict? s now := by
  cases hheard : x.heard with
  | none => simp [verdict?, catchUp, hheard]
  | some watched =>
    cases hknown : x.known with
    | none => simp [verdict?, catchUp, hheard, hknown]
    | some v => simp [verdict?, catchUp, hheard, hknown, Engine.lastHeard_lastHeard]

/-- A sweep hears of the latest report anyway. -/
theorem sweep_catchUp (s : Settings α) (now : Int) (x : Standing α) :
    x.catchUp.sweep s now = x.sweep s now := by
  unfold sweep
  rw [verdict?_catchUp]
  rcases hverdict : x.verdict? s now with _ | _ | _ | _ | cause
  · exact catchUp_of_unheard (by simpa [verdict?] using hverdict)
  · exact x.catchUp_catchUp
  · rfl
  · rfl
  · cases hknown : x.known with
    | none => simp [verdict?, hknown] at hverdict
    | some v =>
      simp only [show x.catchUp.known = some v from hknown, Option.elim_some]
      rfl

/-- The verdict on a watched vehicle is as firm as that on what is known of it. -/
theorem verdict?_firm {s : Settings α} {now later : Int} (hle : now ≤ later) {x : Standing α}
    {verdict : Verdict} (h : x.verdict? s now = some verdict) :
    ∃ verdict', x.verdict? s later = some verdict' ∧ verdict.Firm verdict' := by
  obtain ⟨watched, hheard, rfl⟩ := Option.map_eq_some_iff.mp h
  refine ⟨_, by rw [verdict?, hheard, Option.map_some], ?_⟩
  cases x.known with
  | none => exact .forget
  | some v => exact Engine.verdict_firm s v _ hle

/-- A sweep keeps a vehicle, or it is not watched any longer and is as a later sweep would leave
it. -/
theorem sweep_cases (s : Settings α) {now later : Int} (hle : now ≤ later) (x : Standing α) :
    x.verdict? s now = some .keep ∧ x.sweep s now = x.catchUp ∨
      (x.sweep s now).heard = none ∧ (x.sweep s now).outline = (x.sweep s later).outline := by
  rcases hverdict : x.verdict? s now with _ | verdict
  · have hheard : x.heard = none := by simpa [verdict?] using hverdict
    rw [sweep_of_unheard hheard, sweep_of_unheard hheard]
    exact Or.inr ⟨hheard, rfl⟩
  · obtain ⟨verdict', hlater, hfirm⟩ := verdict?_firm hle hverdict
    cases hfirm with
    | keep => exact Or.inl ⟨rfl, by simp [sweep, hverdict]⟩
    | forget => exact Or.inr (by simp [sweep, hverdict, hlater, unwatch])
    | evict => exact Or.inr (by simp [sweep, hverdict, hlater, unwatch, unpublish])
    | timeOut cause cause' =>
      cases hknown : x.known with
      | none => simp [verdict?, hknown] at hverdict
      | some v =>
        have htimeOut : x.sweep s now = x.timeOut s now v cause := by
          simp [sweep, hverdict, hknown]
        have htimeOut' : x.sweep s later = x.timeOut s later v cause' := by
          simp [sweep, hlater, hknown]
        rw [htimeOut, htimeOut']
        exact Or.inr ⟨x.heard_timeOut s now v cause, x.outline_timeOut s now later v cause cause'⟩

/-- A sweep before a sweep changes nothing but the time and the wording of a timeout. -/
theorem sweep_sweep (s : Settings α) {now later : Int} (hle : now ≤ later) (x : Standing α) :
    ((x.sweep s now).sweep s later).outline = (x.sweep s later).outline := by
  rcases x.sweep_cases s hle with ⟨-, hkept⟩ | ⟨hheard, houtline⟩
  · rw [hkept, sweep_catchUp]
  · rw [sweep_of_unheard hheard, houtline]

/-- A second sweep at the same time changes nothing at all. -/
theorem sweep_sweep_self (s : Settings α) (now : Int) (x : Standing α) :
    (x.sweep s now).sweep s now = x.sweep s now := by
  rcases x.sweep_cases s (Int.le_refl now) with ⟨-, hkept⟩ | ⟨hheard, -⟩
  · rw [hkept, sweep_catchUp, hkept]
  · exact sweep_of_unheard hheard s now

/-- A second sweep at the same time keeps whatever is still watched. -/
theorem verdict?_sweep_self (s : Settings α) (now : Int) (x : Standing α) :
    (x.sweep s now).heard = none ∨ (x.sweep s now).verdict? s now = some .keep := by
  rcases x.sweep_cases s (Int.le_refl now) with ⟨hverdict, hkept⟩ | ⟨hheard, -⟩
  · right
    rw [hkept, verdict?_catchUp, hverdict]
  · exact Or.inl hheard

/-- Further sweeps at the same time change nothing. -/
theorem sweeps_self (s : Settings α) (now : Int) (n : Nat) (x : Standing α) :
    (List.replicate (n + 1) now).foldl (fun x now => x.sweep s now) x = x.sweep s now := by
  induction n generalizing x with
  | zero => rfl
  | succ n ih => rw [List.replicate_succ, List.foldl_cons, ih, sweep_sweep_self]

/-- Any number of sweeps before a sweep change nothing but the time and the wording of a
timeout. -/
theorem sweeps_sweep (s : Settings α) {later : Int} {times : List Int}
    (hpast : ∀ now ∈ times, now ≤ later) (x : Standing α) :
    ((times.foldl (fun x now => x.sweep s now) x).sweep s later).outline =
      (x.sweep s later).outline := by
  induction times generalizing x with
  | nil => rfl
  | cons now rest ih =>
    obtain ⟨hle, hrest⟩ := List.forall_mem_cons.mp hpast
    rw [List.foldl_cons, ih hrest, sweep_sweep s hle]

end Standing

/-! ## Sweeps of a fleet -/

namespace Engine

variable {α : Type} [Scalar α]

/-- The engine after sweeps at these times. -/
def sweepEach (e : Engine α) (times : List Int) : Engine α :=
  times.foldl (fun e now => (e.sweep now).2) e

theorem sweepEach_eq_performAll (e : Engine α) (times : List Int) :
    e.sweepEach times = e.performAll (times.map fun now => (now, .sweep)) := by
  rw [performAll, List.foldl_map]
  rfl

theorem sweepEach_concat (e : Engine α) (times : List Int) (now : Int) :
    e.sweepEach (times ++ [now]) = ((e.sweepEach times).sweep now).2 := by
  rw [sweepEach, List.foldl_append]
  rfl

theorem standing_sweepEach {e : Engine α} (hfiled : e.Filed) (times : List Int)
    (id : VehicleId) : (e.sweepEach times).standing id =
      times.foldl (fun x now => x.sweep e.settings now) (e.standing id) := by
  induction times using List.reverseRecOn with
  | nil => rfl
  | append_singleton times now ih =>
    have hsettings : (e.sweepEach times).settings = e.settings := by
      rw [sweepEach_eq_performAll]
      exact settings_performAll hfiled _
    have hbefore : (e.sweepEach times).Filed := by
      rw [sweepEach_eq_performAll]
      exact hfiled.performAll _
    rw [sweepEach_concat, standing_sweep hbefore, hsettings, ih, List.foldl_append]
    rfl

/-- The background task sweeps several times at one reading of the clock. -/
theorem supervise_eq_sweepEach (e : Engine α) (now : Int) (secs : Nat) :
    e.supervise now secs =
      e.sweepEach (List.replicate (secs / max e.settings.pollingInterval 1) now) := by
  rw [supervise]
  generalize secs / max e.settings.pollingInterval 1 = n
  induction n with
  | zero => rfl
  | succ n ih => rw [Nat.repeat, ih, List.replicate_succ', sweepEach_concat]

/-- A background task that sweeps at all leaves each vehicle as a single sweep does. -/
theorem standing_supervise {e : Engine α} (hfiled : e.Filed) (now : Int) {secs : Nat}
    (hsecs : max e.settings.pollingInterval 1 ≤ secs) (id : VehicleId) :
    (e.supervise now secs).standing id = (e.sweep now).2.standing id := by
  have hsome : 0 < secs / max e.settings.pollingInterval 1 :=
    Nat.div_pos hsecs (Nat.le_max_right _ _)
  obtain ⟨n, hn⟩ := Nat.exists_eq_add_one.mpr hsome
  rw [supervise_eq_sweepEach, hn, standing_sweepEach hfiled, Standing.sweeps_self,
    standing_sweep hfiled]

/-- A sweep that keeps every watched vehicle has no events and changes nothing but the times that
the watch knows. -/
theorem sweepAll_of_kept {e : Engine α} (now : Int) {watched : List (VehicleId × Int)}
    (h : ∀ w ∈ watched, ∃ v, e.vehicles[w.1]? = some v ∧
      verdict e.settings v (lastHeard v w.2) now = .keep) :
    ∃ watch, sweepAll now watched e = ([], { e with watch := watch }) := by
  induction watched generalizing e with
  | nil => exact ⟨e.watch, rfl⟩
  | cons w rest ih =>
    obtain ⟨⟨v, hv, hkeep⟩, hrest⟩ := List.forall_mem_cons.mp h
    have hone : e.sweepOne now w.1 w.2 = (none, e.watchFrom w.1 (lastHeard v w.2)) := by
      simp [sweepOne, hv, hkeep]
    obtain ⟨watch, hwatch⟩ := @ih (e.watchFrom w.1 (lastHeard v w.2)) hrest
    refine ⟨watch, ?_⟩
    rw [sweepAll]
    simp only [hone, hwatch]
    rfl

/-- A second sweep at the same time has no events and changes nothing. -/
theorem sweep_sweep_self {e : Engine α} (hfiled : e.Filed) (now : Int) :
    ∃ watch, (e.sweep now).2.sweep now = ([], { (e.sweep now).2 with watch := watch }) ∧
      ∀ id : VehicleId, watch[id]? = (e.sweep now).2.watch[id]? := by
  have honce : (e.sweep now).2.Filed := hfiled.performAll [(now, .sweep)]
  have hsettings : (e.sweep now).2.settings = e.settings :=
    settings_performAll hfiled [(now, .sweep)]
  have hkept : ∀ w ∈ (e.sweep now).2.watch.toList, ∃ v,
      (e.sweep now).2.vehicles[w.1]? = some v ∧
        verdict (e.sweep now).2.settings v (lastHeard v w.2) now = .keep := by
    intro w hw
    have hheard := (e.sweep now).2.watches_toList.heard w hw
    have hverdict := (e.standing w.1).verdict?_sweep_self e.settings now
    rw [← standing_sweep hfiled now w.1, ← hsettings] at hverdict
    rcases hverdict with hnone | hkeep
    · exact absurd (hheard.symm.trans hnone) (Option.some_ne_none _)
    · cases hv : (e.sweep now).2.vehicles[w.1]? with
      | none => simp [Standing.verdict?, standing, hheard, hv] at hkeep
      | some v =>
        rw [Standing.verdict?_of_heard hheard hv, Option.some.injEq] at hkeep
        exact ⟨v, rfl, hkeep⟩
  obtain ⟨watch, hsweep⟩ := sweepAll_of_kept now hkept
  refine ⟨watch, hsweep, ?_⟩
  intro id
  have hwhole : (e.sweep now).2.sweep now = ([], { (e.sweep now).2 with watch := watch }) := hsweep
  have hsame := standing_sweep honce now id
  rw [hsettings, standing_sweep hfiled now id, Standing.sweep_sweep_self,
    ← standing_sweep hfiled now id, hwhole] at hsame
  exact congrArg Standing.heard hsame

/-- Take any engine that a run of calls leads to. However often its vehicles are swept until a
last sweep at `now`, at whatever earlier times, that last sweep leaves the same vehicles predictable
and the same timed out as it would have done alone, the same watched, with the same times, the same
shown to the public, and the same predictions on the board. A second sweep at the same time finds
nothing and changes nothing. -/
theorem performAll_sweepEach (settings : Settings α) (timetable : Timetable α)
    (journal : Journal α) (calls : List (Int × Call α)) {times : List Int} {now : Int}
    (hpast : ∀ earlier ∈ times, earlier ≤ now) :
    let e := (start settings timetable journal).performAll calls
    let often := ((e.sweepEach times).sweep now).2
    let once := (e.sweep now).2
    (∀ id, (often.vehicle id).predictable = (once.vehicle id).predictable) ∧
    (∀ id, (often.vehicle id).lastEvent.map (·.kind) =
      (once.vehicle id).lastEvent.map (·.kind)) ∧
    (∀ id : VehicleId, often.watch[id]? = once.watch[id]?) ∧
    (∀ id : VehicleId, often.live[id]? = once.live[id]?) ∧
    (∀ id, often.board.forVehicle id = once.board.forVehicle id) ∧
    (∀ route stop, often.board.forStop route stop = once.board.forStop route stop) ∧
    often.board.all = once.board.all ∧ often.board.vehicleCount = once.board.vehicleCount ∧
    ∃ watch, once.sweep now = ([], { once with watch := watch }) ∧
      ∀ id : VehicleId, watch[id]? = once.watch[id]? := by
  intro e often once
  have hfiled : e.Filed := (Filed.start settings timetable journal).performAll calls
  have hsound : ∀ swept, (e.sweepEach swept).board.Sound := by
    intro swept
    rw [sweepEach_eq_performAll, ← performAll_append]
    exact sound_performAll settings timetable journal _
  have hsoundOften : often.board.Sound := by
    have h := hsound (times ++ [now])
    rwa [sweepEach_concat] at h
  have hsoundOnce : once.board.Sound := hsound [now]
  have houtline : ∀ id, (often.standing id).outline = (once.standing id).outline := by
    intro id
    have hoften : often = e.sweepEach (times ++ [now]) := (e.sweepEach_concat times now).symm
    rw [hoften, standing_sweepEach hfiled, List.foldl_append, standing_sweep hfiled]
    exact Standing.sweeps_sweep e.settings hpast (e.standing id)
  have hlists : ∀ id, often.board.forVehicle id = once.board.forVehicle id := fun id =>
    congrArg Standing.listed (houtline id)
  refine ⟨?_, ?_, fun id => congrArg Standing.heard (houtline id),
    fun id => congrArg Standing.shown (houtline id), hlists,
    hsoundOften.forStop_congr hsoundOnce hlists, hsoundOften.all_congr hsoundOnce hlists,
    hsoundOften.vehicleCount_congr hsoundOnce hlists, sweep_sweep_self hfiled now⟩
  · intro id
    have hpredictable := (often.standing id).predictable_outline id
    rw [houtline, Standing.predictable_outline] at hpredictable
    exact hpredictable.symm
  · intro id
    have hkind := (often.standing id).kind_outline id
    rw [houtline, Standing.kind_outline] at hkind
    exact hkind.symm

/-- The ferry of `overrun` reports once, at the pier. Two sweeps keep it while it is expected to
wait, and the third one ends its wait; a single sweep later on does so as well, with another
event. -/
theorem performAll_sweepEach_moored :
    let e := (start .standard (.ofTrips [crossing]) (.kept #[])).performAll (overrun.take 1)
    let often := ((e.sweepEach [800000, 1100000, 1700000]).sweep 2000000).2
    let once := (e.sweep 2000000).2
    ((e.sweepEach [800000, 1100000]).vehicle "ferry").predictable = true ∧
      (often.vehicle "ferry").predictable = false ∧
      (once.vehicle "ferry").predictable = false ∧
      often.board.all = once.board.all ∧
      (often.vehicle "ferry").lastEvent.map (·.time) = some 1700000 ∧
      (once.vehicle "ferry").lastEvent.map (·.time) = some 2000000 := by
  intro e often once
  have hpast : ∀ earlier ∈ ([800000, 1100000, 1700000] : List Int), earlier ≤ 2000000 := by
    decide
  obtain ⟨hpredictable, -, -, -, -, -, hall, -⟩ :=
    performAll_sweepEach .standard (.ofTrips [crossing]) (.kept #[]) (overrun.take 1) hpast
  have honce : (once.vehicle "ferry").predictable = false := by decide +kernel
  have hoften : (often.vehicle "ferry").predictable = false :=
    (hpredictable "ferry").trans honce
  refine ⟨?_, hoften, honce, hall, ?_, ?_⟩
  · decide +kernel
  · decide +kernel
  · decide +kernel

end Engine

end NextStop
