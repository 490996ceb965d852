import NextStop.Proofs.Engine.Watch

/-!
# The log of changes of status

The changes of status of a vehicle that are on record tell whether it is predictable,
`Vehicle.OnRecord`: it is if the latest of them says so. Each of them is a change: a vehicle
becomes predictable only if it was not, and times out or loses its placement only if it was.
Every move of a vehicle adds to the log what became of it, and nothing else does.
-/

namespace NextStop

/-- Whether changes of status, in this order, leave a vehicle predictable. -/
def leavePredictable (log : List StatusEvent) : Bool :=
  log.getLast?.any fun ev => ev.kind = .predictable

/-- Whether a change of status may befall a vehicle that was predictable before or was not. -/
def StatusEvent.MayBefall (ev : StatusEvent) (was : Bool) : Prop :=
  match ev.kind with
  | .predictable => was = false
  | .timeout => was = true
  | .noMatch => was = true
  | .unassigned => True

/-- The changes of status of a vehicle among records. -/
def statusLog {α : Type} (records : List (Record α)) (id : VehicleId) : List StatusEvent :=
  (records.filterMap Record.status?).filter fun ev => ev.vehicle = id

theorem statusLog_append {α : Type} (records later : List (Record α)) (id : VehicleId) :
    statusLog (records ++ later) id = statusLog records id ++ statusLog later id := by
  simp [statusLog]

theorem leavePredictable_concat (log : List StatusEvent) (ev : StatusEvent) :
    leavePredictable (log ++ [ev]) = decide (ev.kind = .predictable) := by
  simp [leavePredictable]

theorem leavePredictable_iff (log : List StatusEvent) :
    leavePredictable log = true ↔ log.getLast?.map (·.kind) = some .predictable := by
  simp [leavePredictable, Option.any_eq_true]

namespace Vehicle

variable {α : Type}

/-- The log of a vehicle accounts for what is known of it. -/
structure OnRecord (v : Vehicle α) (log : List StatusEvent) : Prop where
  lastEvent_eq : v.lastEvent = log.getLast?
  predictable_eq : v.predictable = leavePredictable log
  befalls : ∀ before ev after, log = before ++ ev :: after →
    ev.MayBefall (leavePredictable before)

variable {v w : Vehicle α} {log : List StatusEvent}

theorem OnRecord.of_same (h : v.OnRecord log) (hlast : w.lastEvent = v.lastEvent)
    (hpredictable : w.predictable = v.predictable) : w.OnRecord log where
  lastEvent_eq := hlast.trans h.lastEvent_eq
  predictable_eq := hpredictable.trans h.predictable_eq
  befalls := h.befalls

theorem OnRecord.concat (h : v.OnRecord log) {ev : StatusEvent} (hlast : w.lastEvent = some ev)
    (hpredictable : w.predictable = decide (ev.kind = .predictable))
    (hmay : ev.MayBefall v.predictable) : w.OnRecord (log ++ [ev]) where
  lastEvent_eq := by simp [hlast]
  predictable_eq := by rw [leavePredictable_concat, hpredictable]
  befalls before ev' after hsplit := by
    rcases List.eq_nil_or_concat' after with rfl | ⟨init, last, rfl⟩
    · -- the new event
      obtain ⟨rfl, hev⟩ := List.append_inj' hsplit rfl
      obtain rfl : ev = ev' := by simpa using hev
      rwa [← h.predictable_eq]
    · -- an event that was on record before
      have hbefore : log ++ [ev] = (before ++ ev' :: init) ++ [last] := by simpa using hsplit
      exact h.befalls before ev' init (List.append_inj' hbefore rfl).1

/-- A report that is placed is on record if it makes the vehicle predictable. -/
theorem OnRecord.place (h : v.OnRecord log) (r : Report α) (p : Placement α) (t : Trip α) :
    (v.place r p t).1.OnRecord (log ++ (v.place r p t).2.toList) := by
  cases hbefore : v.predictable with
  | true =>
    have hnone : (v.place r p t).2 = none := by simp [Vehicle.place, hbefore]
    rw [hnone, Option.toList_none, List.append_nil]
    exact h.of_same (by simp [Vehicle.place, hbefore]) (by simp [Vehicle.place, hbefore])
  | false =>
    have hsome : (v.place r p t).2 =
        some (v.event r.time .predictable "Vehicle matched to assignment") := by
      simp [Vehicle.place, hbefore, event]
    rw [hsome, Option.toList_some]
    refine h.concat ?_ ?_ hbefore
    · simp [Vehicle.place, hbefore, event]
    · simp [Vehicle.place, hbefore, event]

theorem OnRecord.demote (h : v.OnRecord log) {kind : StatusKind} (hkind : kind ≠ .predictable)
    (hbefore : kind ≠ .unassigned → v.predictable = true) (description : String) (time : Int) :
    (v.demote kind description time).1.OnRecord
      (log ++ [(v.demote kind description time).2]) := by
  refine h.concat rfl ?_ ?_
  · show false = decide (kind = .predictable)
    simp [hkind]
  · cases kind with
    | predictable => contradiction
    | timeout => exact hbefore (by simp)
    | noMatch => exact hbefore (by simp)
    | unassigned => trivial

end Vehicle

namespace Engine

variable {α : Type} [Scalar α]

/-- Only predictable vehicles time out. -/
theorem predictable_of_verdict_timeOut {s : Settings α} {v : Vehicle α} {last now : Int}
    {cause : TimeoutCause} (h : verdict s v last now = .timeOut cause) : v.predictable = true := by
  cases hpredictable : v.predictable with
  | true => rfl
  | false =>
    have hidle : verdictIdle s last now = .timeOut cause := by
      simpa [verdict, hpredictable] using h
    unfold verdictIdle at hidle
    split at hidle
    · contradiction
    · split at hidle <;> contradiction

end Engine

/-! ## Moves -/

section Moves

variable {α : Type} [Scalar α] {s : Settings α} {id : VehicleId} {x y : Standing α}
  {events : List StatusEvent}

/-- The changes of status in a move are those of the vehicle that makes it. -/
theorem Move.vehicle_of_mem (h : Move s id x events y) (hx : ∀ v, x.known = some v → v.id = id) :
    ∀ ev ∈ events, ev.vehicle = id := by
  have hid := x.vehicle_id hx
  have hplace : ∀ r p t, ∀ ev ∈ ((x.vehicle id).place r p t).2.toList, ev.vehicle = id := by
    intro r p t ev hev
    cases hbefore : (x.vehicle id).predictable with
    | true => simp [Vehicle.place, hbefore] at hev
    | false =>
      simp only [Vehicle.place, hbefore, Bool.false_eq_true, if_false, Option.toList_some,
        List.mem_singleton] at hev
      rw [hev]
      exact hid
  intro ev hev
  cases h with
  | rest => contradiction
  | rejected r p t => exact hplace r p t ev hev
  | processed r p t => exact hplace r p t ev hev
  | unplaced => contradiction
  | misplaced r w event hbefore hdemote =>
    obtain rfl := List.mem_singleton.mp hev
    exact (congrArg (fun d => d.2.vehicle) hdemote).symm.trans hid
  | unassigned now w hknown =>
    obtain rfl := List.mem_singleton.mp hev
    exact hx w hknown
  | swept now =>
    rcases Standing.known_sweep s now x with ⟨hnone, -⟩ | ⟨w, cause, -, hw, hevent, -⟩
    · rw [hnone] at hev
      contradiction
    · rw [hevent] at hev
      obtain rfl := List.mem_singleton.mp hev
      exact hx w hw

/-- Every move is on record. -/
theorem Move.onRecord {log : List StatusEvent} (h : Move s id x events y)
    (hx : (x.vehicle id).OnRecord log) : (y.vehicle id).OnRecord (log ++ events) := by
  cases h with
  | rest => rwa [List.append_nil]
  | rejected r p t scheduleBased hout => exact (hx.place r p t).of_same rfl rfl
  | processed r p t scheduleBased w predictions listed headway hon hw hlisted =>
    subst hw
    exact (hx.place r p t).of_same rfl rfl
  | unplaced r hidle =>
    rw [List.append_nil]
    exact hx.of_same rfl rfl
  | misplaced r w event hbefore hdemote =>
    have hreported : ({ x.vehicle id with lastReport := some r } : Vehicle α).OnRecord log :=
      hx.of_same rfl rfl
    have hdemoted := hreported.demote (by simp : StatusKind.noMatch ≠ .predictable)
      (fun _ => hbefore) "No match for AVL report" r.time
    rw [hdemote] at hdemoted
    exact hdemoted
  | unassigned now w hknown =>
    have hw : x.vehicle id = w := by simp [Standing.vehicle, hknown]
    rw [hw] at hx
    have hdemoted := hx.demote (by simp : StatusKind.unassigned ≠ .predictable)
      (fun hne => absurd rfl hne) "Vehicle unassigned" now
    exact hdemoted.of_same rfl rfl
  | swept now =>
    rcases Standing.known_sweep s now x with
      ⟨hnone, hsame⟩ | ⟨w, cause, hverdict, hw, hevent, hdemoted⟩
    · have hvehicle : (x.sweep s now).vehicle id = x.vehicle id := by
        rw [Standing.vehicle, hsame, Standing.vehicle]
      rwa [hnone, Option.toList_none, List.append_nil, hvehicle]
    · have hbefore : x.vehicle id = w := by simp [Standing.vehicle, hw]
      have hafter : (x.sweep s now).vehicle id =
          (w.demote .timeout cause.description now).1 := by
        simp [Standing.vehicle, hdemoted]
      obtain ⟨watched, -, htimeOut⟩ := Option.map_eq_some_iff.mp hverdict
      rw [hw, Option.elim_some] at htimeOut
      rw [hbefore] at hx
      rw [hevent, Option.toList_some, hafter]
      exact hx.demote (by simp) (fun _ => Engine.predictable_of_verdict_timeOut htimeOut)
        cause.description now

end Moves

namespace Engine

variable {α : Type} [Scalar α]

/-- Every vehicle is on record in what a run puts into the journal. -/
theorem performAll_onRecord (settings : Settings α) (timetable : Timetable α)
    (journal : Journal α) (calls : List (Int × Call α)) :
    let e := (start settings timetable journal).performAll calls
    ∃ records, e.journal = journal.appendAll records ∧
      ∀ id, (e.vehicle id).OnRecord (statusLog records id) := by
  have hstart : ∃ records, (start settings timetable journal).journal = journal.appendAll records ∧
      ∀ id, ((start settings timetable journal).vehicle id).OnRecord (statusLog records id) := by
    refine ⟨[], rfl, ?_⟩
    intro id
    have hunknown : (start settings timetable journal).vehicle id = .unknown id := by
      simp [vehicle, start]
    rw [hunknown]
    refine ⟨rfl, rfl, ?_⟩
    intro before ev after hsplit
    simp [statusLog] at hsplit
  refine (performAll_step_induction (P := fun e => ∃ records,
    e.journal = journal.appendAll records ∧
      ∀ id, (e.vehicle id).OnRecord (statusLog records id)) ?_
    (Filed.start settings timetable journal) hstart calls).2
  rintro e moved events e' hfiled ⟨records, hjournal, hrecord⟩ hstep
  obtain ⟨new, hnew, hstatus⟩ := hstep.recorded
  have hvehicle := hstep.move.vehicle_of_mem (hfiled moved)
  refine ⟨records ++ new, by rw [hnew, hjournal, Journal.appendAll_append], ?_⟩
  intro id
  rw [statusLog_append]
  by_cases hid : moved = id
  · subst hid
    have hlog : statusLog new moved = events := by
      rw [statusLog, hstatus, List.filter_eq_self]
      simpa using hvehicle
    rw [hlog]
    exact hstep.move.onRecord (hrecord moved)
  · have hlog : statusLog new id = [] := by
      rw [statusLog, hstatus, List.filter_eq_nil_iff]
      intro ev hev
      simpa [hvehicle ev hev] using hid
    have hsame := congrArg (Standing.vehicle · id) (hstep.others id hid)
    rw [hlog, List.append_nil]
    exact (hrecord id).of_same (congrArg Vehicle.lastEvent hsame)
      (congrArg Vehicle.predictable hsame)

/-- After any run of calls to an engine whose journal keeps all records, the records of the run
tell of every vehicle what its status is and how it came to it. The latest change of status on
record is the one that the vehicle has; the vehicle is predictable exactly if that change made it
so; no two changes in a row make it predictable; and each timeout and each lost placement comes
right after a change that made it predictable. -/
theorem performAll_statusLog (settings : Settings α) (timetable : Timetable α)
    (kept : Array (Record α)) (calls : List (Int × Call α)) :
    let e := (start settings timetable (.kept kept)).performAll calls
    ∃ records : List (Record α), e.journal = .kept (kept ++ records) ∧
      ∀ id,
        (e.vehicle id).lastEvent = (statusLog records id).getLast? ∧
        ((e.vehicle id).predictable = true ↔
          (statusLog records id).getLast?.map (·.kind) = some .predictable) ∧
        (∀ before ev next after, statusLog records id = before ++ ev :: next :: after →
          ¬(ev.kind = .predictable ∧ next.kind = .predictable)) ∧
        ∀ before ev after, statusLog records id = before ++ ev :: after →
          ev.kind = .timeout ∨ ev.kind = .noMatch →
            before.getLast?.map (·.kind) = some .predictable := by
  intro e
  obtain ⟨records, hjournal, hrecord⟩ :=
    performAll_onRecord settings timetable (.kept kept) calls
  rw [appendAll_kept] at hjournal
  refine ⟨records, hjournal, ?_⟩
  intro id
  obtain ⟨hlast, hpredictable, hbefalls⟩ := hrecord id
  refine ⟨hlast, ?_, ?_, ?_⟩
  · rw [hpredictable, leavePredictable_iff]
  · rintro before ev next after hsplit ⟨hev, hnext⟩
    have hmay := hbefalls (before ++ [ev]) next after (by simpa using hsplit)
    simp [StatusEvent.MayBefall, hnext, leavePredictable_concat, hev] at hmay
  · intro before ev after hsplit hkind
    have hmay := hbefalls before ev after hsplit
    rw [← leavePredictable_iff]
    rcases hkind with hkind | hkind
    · simpa [StatusEvent.MayBefall, hkind] using hmay
    · simpa [StatusEvent.MayBefall, hkind] using hmay

/-- The ferry of `crossing` is placed, lost, placed again, and then falls silent. -/
def lostAndFound : List (Int × Call Rat) :=
  let reported (time : Int) (placement : Option (Placement Rat)) : Call Rat :=
    .report ⟨⟨"ferry", time, 0, 0, false⟩, placement, false⟩
  let pier : Placement Rat := ⟨"crossing", "block", 0, 0, 500, 500⟩
  [(700000, reported 700000 (some pier)), (705000, reported 705000 none),
    (710000, reported 710000 (some pier)), (2000000, .sweep)]

/-- Four changes of status are on record, and the last of them, a timeout, comes after one that
made the ferry predictable. -/
theorem performAll_statusLog_lostAndFound :
    let e := (start .standard (.ofTrips [crossing]) (.kept #[])).performAll lostAndFound
    let log := statusLog e.journal.records "ferry"
    log.map (·.kind) = [.predictable, .noMatch, .predictable, .timeout] ∧
      (e.vehicle "ferry").lastEvent = log.getLast? ∧
      (e.vehicle "ferry").predictable = false ∧
      ∃ before ev, log = before ++ [ev] ∧ ev.kind = .timeout ∧
        before.getLast?.map (·.kind) = some .predictable := by
  intro e log
  obtain ⟨records, hjournal, hall⟩ :=
    performAll_statusLog .standard (.ofTrips [crossing]) #[] lostAndFound
  have hlog : log = statusLog records "ferry" := by
    have hrecords : e.journal.records = records := by
      rw [hjournal]
      simp [Journal.records]
    exact congrArg (statusLog · "ferry") hrecords
  obtain ⟨hlast, hpredictable, -, hended⟩ := hall "ferry"
  rw [← hlog] at hlast hpredictable hended
  have hkinds : log.map (·.kind) = [.predictable, .noMatch, .predictable, .timeout] := by
    decide +kernel
  obtain ⟨before, ev, hsplit⟩ : ∃ before ev, log = before ++ [ev] := by
    rcases List.eq_nil_or_concat' log with hnil | hconcat
    · rw [hnil] at hkinds
      contradiction
    · exact hconcat
  have hev : ev.kind = .timeout := by
    have hkind := congrArg List.getLast? hkinds
    simpa [hsplit] using hkind
  refine ⟨hkinds, hlast, ?_, before, ev, hsplit, hev, hended before ev [] hsplit (Or.inl hev)⟩
  rw [← Bool.not_eq_true, hpredictable, hsplit]
  simp [hev]

end Engine

end NextStop
