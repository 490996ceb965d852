import NextStop.Proofs.Engine.Calls

/-!
# Histories and records

What an engine remembers of runs and stops is what it puts on record: every step adds records to
the journal and feeds those stop events among them into the statistics whose routes count,
`Engine.Advances`. Only a warm start feeds in events that are not put on record. So after every
run of calls the histories are made of the events on record and those of the warm starts, in the
order in which they came.
-/

namespace NextStop

namespace Engine

variable {α : Type} [Scalar α]

/-! ## What a step adds -/

/-- The stop events on record whose routes count. -/
def counted (s : Settings α) (records : List (Record α)) : List StopEvent :=
  (records.filterMap Record.stopEvent?).filter fun ev => s.routeCounts ev.route

/-- From one engine to another, records are added, and their stop events enter the histories. -/
def Advances (now : Int) (e e' : Engine α) : Prop :=
  ∃ records, e'.journal = e.journal.appendAll records ∧
    (e.statistics.feed now (counted e.settings records)).SameHistories e'.statistics

variable {now : Int} {e e' e'' : Engine α}

theorem Advances.of_eq (hjournal : e'.journal = e.journal)
    (hstatistics : e.statistics.SameHistories e'.statistics) : e.Advances now e' :=
  ⟨[], hjournal, hstatistics⟩

theorem Advances.refl (e : Engine α) : e.Advances now e := .of_eq rfl (.refl _)

theorem Advances.settings_eq (h : e.Advances now e') : e'.settings = e.settings := by
  obtain ⟨records, -, hsame⟩ := h
  exact hsame.settings.trans (Statistics.feed_settings _ _ _)

theorem Advances.trans (h : e.Advances now e') (h' : e'.Advances now e'') :
    e.Advances now e'' := by
  have hsettings := h.settings_eq
  obtain ⟨records, hjournal, hsame⟩ := h
  obtain ⟨records', hjournal', hsame'⟩ := h'
  refine ⟨records ++ records', ?_, ?_⟩
  · rw [hjournal', hjournal, Journal.appendAll, Journal.appendAll, Journal.appendAll,
      List.foldl_append]
  · rw [counted, List.filterMap_append, List.filter_append, Statistics.feed_append]
    rw [hsettings] at hsame'
    exact (hsame.feed now _).trans hsame'

/-- Changes elsewhere in the state add nothing. -/
theorem Advances.elsewhere (h : e.Advances now e') (hjournal : e''.journal = e'.journal)
    (hstatistics : e''.statistics = e'.statistics) : e.Advances now e'' := by
  refine h.trans (.of_eq hjournal ?_)
  rw [hstatistics]
  exact .refl _

theorem advances_record (e : Engine α) {r : Record α} (h : r.stopEvent? = none) :
    e.Advances now (e.record r) := by
  refine ⟨[r], rfl, ?_⟩
  rw [counted, List.filterMap_cons_none h]
  exact .refl _

/-! ## Steps of a report -/

theorem advances_publish (e : Engine α) (v : Vehicle α) : e.Advances now (e.publish v) := by
  obtain ⟨live, hlive⟩ := e.publish_eq v
  rw [hlive]
  exact (Advances.refl e).elsewhere rfl rfl

theorem advances_runCycle (e : Engine α) (v : Vehicle α) (f : Fix α) :
    e.Advances now (e.runCycle now v f).2.2 := by
  rw [runCycle_eq_yield]
  refine ⟨Yield.records e.statistics now v f, journal_publish _ _, ?_⟩
  rw [counted, Yield.filterMap_stopEvent?_records, statistics_publish]
  exact Yield.changeAll_histories e.statistics now v f

theorem advances_processVehicle (e : Engine α) (v : Vehicle α) :
    e.Advances now (e.processVehicle now v).2.2 := by
  rcases e.processVehicle_cases now v with ⟨error, heq⟩ | heq | ⟨f, -, -, -, -, -, heq⟩
  · rw [heq]
    exact .refl e
  · rw [heq]
    exact .refl e
  · rw [heq]
    exact e.advances_runCycle v f

/-! ## Calls -/

theorem advances_afterDemotion (e : Engine α) (v : Vehicle α) (event : StatusEvent) :
    e.Advances now (e.afterDemotion v event) := by
  have hboard : e.Advances now { e with board := e.board.remove v.id } :=
    (Advances.refl e).elsewhere rfl rfl
  exact (hboard.trans (advances_record _ (r := .status event) rfl)).trans (advances_publish _ v)

theorem advances_takeUnplaced (e : Engine α) (r : Report α) :
    e.Advances now (e.takeUnplaced r) := by
  rw [takeUnplaced]
  dsimp only
  split
  · exact (advances_afterDemotion e _ _).elsewhere rfl rfl
  · exact (Advances.refl e).elsewhere rfl rfl

theorem advances_takePlaced (e : Engine α) (r : Report α) (p : Placement α) (t : Trip α)
    (scheduleBased : Bool) : e.Advances now (e.takePlaced now r p t scheduleBased).2 := by
  have hchange : ∀ event, e.Advances now (e.recordChange event) := by
    intro event
    cases event with
    | none => exact .refl e
    | some event => exact advances_record e (r := .status event) rfl
  rw [takePlaced]
  generalize (e.vehicle r.vehicle).place r p t = placed
  obtain ⟨v, event⟩ := placed
  have hprocess := (hchange event).trans
    (advances_processVehicle (e.recordChange event) { v with scheduleBased := scheduleBased })
  exact hprocess.elsewhere rfl rfl

theorem advances_take (e : Engine α) (m : MatchedReport α) :
    e.Advances now (e.take now m).2 := by
  rw [take]
  split
  · exact .refl e
  · split
    · exact advances_takeUnplaced e m.report
    · split
      · exact .refl e
      · exact advances_takePlaced e _ _ _ _

theorem advances_unassign (e : Engine α) (id : VehicleId) :
    e.Advances now (e.unassign now id).2 := by
  rw [unassign]
  split
  · exact .refl e
  · exact (advances_afterDemotion e _ _).elsewhere rfl rfl

theorem advances_timeOut (e : Engine α) (v : Vehicle α) (cause : TimeoutCause) :
    e.Advances now (e.timeOut now v cause).2 := by
  rw [timeOut]
  dsimp only
  split
  · exact (advances_afterDemotion e _ _).elsewhere rfl rfl
  · exact (advances_afterDemotion e _ _).elsewhere rfl rfl

theorem advances_sweepOne (e : Engine α) (id : VehicleId) (watched : Int) :
    e.Advances now (e.sweepOne now id watched).2 := by
  rw [sweepOne]
  split
  · exact (Advances.refl e).elsewhere rfl rfl
  · dsimp only
    split
    · exact (Advances.refl e).elsewhere rfl rfl
    · exact (Advances.refl e).elsewhere rfl rfl
    · exact (Advances.refl e).elsewhere rfl rfl
    · exact advances_timeOut e _ _

theorem advances_sweep (e : Engine α) : e.Advances now (e.sweep now).2 :=
  sweepAll_induction (fun e' id watched h => h.trans (advances_sweepOne e' id watched)) _ (.refl e)

/-! ## Runs of calls -/

/-- The events that enter the histories in a call, without those of excluded routes: a warm start
feeds in what is recent enough of its history, oldest first, and every other call the arrivals
and departures that it puts on record. -/
def entered (e : Engine α) : Int × Call α → List StopEvent
  | (now, .warmUp history) =>
    Statistics.admitted e.settings
      (Statistics.window (e.warmUpStart now) now history)
  | call => counted e.settings ((e.perform call).journal.records.drop e.journal.records.length)

/-- The events that enter the histories in a run of calls. -/
def enteredAll (e : Engine α) : List (Int × Call α) → List StopEvent
  | [] => []
  | call :: rest => e.entered call ++ (e.perform call).enteredAll rest

/-- In a run of calls no history is lost, and none has expired when an event is added to it, or
at the end, when the clock reads `now`. -/
def LosesNothing (e : Engine α) (now : Int) : List (Int × Call α) → Prop
  | [] => e.statistics.runs.AllLive now ∧ e.statistics.stops.AllLive now
  | call :: rest =>
    e.statistics.RetainsAll call.1 (e.entered call) ∧ (e.perform call).LosesNothing now rest

instance decidableLosesNothing (e : Engine α) (now : Int) :
    (calls : List (Int × Call α)) → Decidable (e.LosesNothing now calls)
  | [] => inferInstanceAs (Decidable (_ ∧ _))
  | call :: rest =>
    have := decidableLosesNothing (e.perform call) now rest
    inferInstanceAs (Decidable (_ ∧ _))

omit [Scalar α] in
/-- A journal that keeps all records goes on keeping them. -/
theorem appendAll_kept (kept : Array (Record α)) (records : List (Record α)) :
    (Journal.kept kept).appendAll records = .kept (kept ++ records) := by
  induction records generalizing kept with
  | nil => exact congrArg Journal.kept Array.appendList_nil.symm
  | cons r rest ih =>
    rw [Array.appendList_cons]
    exact ih (kept.push r)

/-- What enters the histories in a call is what they are fed with. -/
theorem perform_feeds {e : Engine α} {kept : Array (Record α)} (hkept : e.journal = .kept kept)
    (call : Int × Call α) :
    (∃ kept', (e.perform call).journal = .kept kept') ∧
      (e.statistics.feed call.1 (e.entered call)).SameHistories (e.perform call).statistics := by
  have hrecorded : ∀ {now : Int} {e' : Engine α}, e.Advances now e' →
      (∃ kept', e'.journal = .kept kept') ∧
        (e.statistics.feed now (counted e.settings
          (e'.journal.records.drop e.journal.records.length))).SameHistories e'.statistics := by
    rintro now e' ⟨records, hjournal, hsame⟩
    rw [hkept, appendAll_kept] at hjournal
    rw [hjournal, hkept]
    refine ⟨⟨_, rfl⟩, ?_⟩
    have hdrop : (Journal.kept (kept ++ records)).records.drop (Journal.kept kept).records.length =
        records := by
      simp [Journal.records]
    rwa [hdrop]
  obtain ⟨now, call⟩ := call
  cases call with
  | report m => exact hrecorded (e.advances_take m)
  | unassign id => exact hrecorded (e.advances_unassign id)
  | warmUp history => exact ⟨⟨kept, hkept⟩, .refl _⟩
  | sweep => exact hrecorded e.advances_sweep

/-- A run of calls that loses nothing leaves histories that recall all that entered. -/
theorem recalls_performAll {e : Engine α} {kept : Array (Record α)}
    (hkept : e.journal = .kept kept) {events : List StopEvent}
    (h : e.statistics.Recalls events) {now : Int} {calls : List (Int × Call α)}
    (hloss : e.LosesNothing now calls) :
    (e.performAll calls).statistics.Recalls (events ++ e.enteredAll calls) ∧
      (e.performAll calls).statistics.runs.AllLive now ∧
      (e.performAll calls).statistics.stops.AllLive now := by
  induction calls generalizing e kept events with
  | nil =>
    rw [enteredAll, List.append_nil]
    exact ⟨h, hloss⟩
  | cons call rest ih =>
    obtain ⟨⟨kept', hkept'⟩, hsame⟩ := perform_feeds hkept call
    have hcall := (h.feed hloss.1).congr hsame
    rw [enteredAll, ← List.append_assoc]
    exact ih hkept' hcall hloss.2

/-- After any run of calls to an engine whose journal keeps all records, in which no history is
lost or expires, the histories are made of the events that entered: the log of every run and of
every stop and day is the stable sort by time of the events that belong to it, and there are no
other logs. -/
theorem performAll_histories (settings : Settings α) (timetable : Timetable α)
    (calls : List (Int × Call α)) (now : Int)
    (hloss : (start settings timetable (.kept #[])).LosesNothing now calls) :
    let entered := (start settings timetable (.kept #[])).enteredAll calls
    let s := ((start settings timetable (.kept #[])).performAll calls).statistics
    (∀ k, (s.run? now k).map EventLog.toList =
        EventLog.sorted? (entered.filter fun ev => s.runKey ev == k)) ∧
      (∀ k, k ∈ s.runs.keys now ↔ ∃ ev ∈ entered, s.runKey ev = k) ∧
      (∀ k, (s.stopDay? now k).map EventLog.toList =
        EventLog.sorted?
          (entered.filter fun ev => ev.stop = k.stop ∧ ev.serviceDate = k.serviceDate)) ∧
      ∀ k, k ∈ s.stops.keys now ↔
        ∃ ev ∈ entered, ev.stop = k.stop ∧ ev.serviceDate = k.serviceDate := by
  intro entered s
  have hkey : ∀ (ev : StopEvent) (k : StopDayKey),
      Statistics.stopDayKey ev = k ↔ ev.stop = k.stop ∧ ev.serviceDate = k.serviceDate := by
    rintro ev ⟨stop, date⟩
    rw [Statistics.stopDayKey, StopDayKey.mk.injEq]
  have hstart : (start settings timetable (.kept #[])).statistics.Recalls [] :=
    Statistics.recalls_empty settings
  obtain ⟨hrecalls, hruns, hstops⟩ := recalls_performAll rfl hstart hloss
  refine ⟨hrecalls.runs.map_get? hruns, hrecalls.runs.mem_keys_iff hruns, fun k => ?_, fun k => ?_⟩
  · refine (hrecalls.stops.map_get? hstops k).trans (congrArg _ (List.filter_congr fun ev _ => ?_))
    rw [Bool.eq_iff_iff, beq_iff_eq, decide_eq_true_eq, hkey]
  · simp only [← hkey]
    exact hrecalls.stops.mem_keys_iff hstops k

/-- A trip with two stops. -/
def shuttle : Trip Rat where
  id := "shuttle"
  route := "1"
  direction := none
  block := "block"
  service := "weekdays"
  frequencyBased := false
  start := 0
  stopPaths := ["harbour", "market"].map fun stop => ⟨stop, 60000, 0, 0, false, none⟩

/-- An event of that trip at its last stop, under the name of a route. -/
def atMarket (vehicle : VehicleId) (route : RouteId) (time : Int) (kind : StopEventKind)
    (scheduled : Option Int) : StopEvent where
  vehicle := vehicle
  trip := "shuttle"
  route := route
  direction := none
  block := "block"
  stop := "market"
  index := 1
  time := time
  kind := kind
  serviceDate := Date.ofDays 0
  tripStart := 0
  frequencyBased := false
  scheduled := scheduled

/-- A history that is not in order and has an event of another route. -/
def pastOfShuttle : List StopEvent :=
  [atMarket "tram" "1" 9000 .departure none, atMarket "tram" "1" 10 .arrival none,
    atMarket "tram" "9" 20 .arrival none]

/-- Two reports of a bus that reaches the last stop, both late. -/
def lateArrival : List (Int × Call Rat) :=
  let reported (time : Int) (along : Rat) : Call Rat :=
    .report ⟨⟨"bus", time, 0, 0, false⟩, some ⟨"shuttle", "block", 0, 1, along, 500⟩, false⟩
  [(11000, reported 1000 100), (12000, reported 2000 500)]

/-- The log of the run has the three events of the route that counts, by time: the live one comes
between those of the warm start. -/
theorem performAll_histories_warmAndLive :
    let settings : Settings Rat := { Settings.standard with excludedRoutes := ["9"] }
    let e := start settings (.ofTrips [shuttle]) (.kept #[])
    let calls := (10000, .warmUp pastOfShuttle) :: lateArrival
    e.LosesNothing 12000 calls ∧
      ((e.performAll calls).statistics.run? 12000 ⟨"shuttle", Date.ofDays 0, 0⟩).map
          EventLog.toList =
        some [atMarket "tram" "1" 10 .arrival none, atMarket "bus" "1" 2000 .arrival (some 0),
          atMarket "tram" "1" 9000 .departure none] := by
  intro settings e calls
  have hadmitted : e.entered (10000, .warmUp pastOfShuttle) =
      [atMarket "tram" "1" 10 .arrival none, atMarket "tram" "1" 9000 .departure none] := by
    rw [entered, Statistics.admitted, ← EventLog.toList_ofEvents]
    decide +kernel
  have hwarm : e.perform (10000, .warmUp pastOfShuttle) = { e with
      statistics := e.statistics.feed 10000 [atMarket "tram" "1" 10 .arrival none,
        atMarket "tram" "1" 9000 .departure none] } := by
    rw [← hadmitted]
    rfl
  have hloss : e.LosesNothing 12000 calls := by
    refine ⟨?_, ?_⟩
    · rw [hadmitted]
      decide +kernel
    · rw [hwarm]
      decide +kernel
  have hentered : e.enteredAll calls = [atMarket "tram" "1" 10 .arrival none,
      atMarket "tram" "1" 9000 .departure none, atMarket "bus" "1" 2000 .arrival (some 0)] := by
    rw [enteredAll, hadmitted, hwarm]
    decide +kernel
  obtain ⟨hrun, -⟩ := performAll_histories settings (.ofTrips [shuttle]) calls 12000 hloss
  refine ⟨hloss, ?_⟩
  rw [hrun, hentered, ← EventLog.map_toList_ofEvents?]
  decide +kernel

end Engine

end NextStop
