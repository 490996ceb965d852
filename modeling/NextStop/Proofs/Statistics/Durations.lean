import Mathlib.Data.List.Induction
import NextStop.Proofs.Statistics.Shelves

/-!
# What durations are measured between

Travel and dwell times are measured between two events in the log of a run: the event that ends the
duration, and the last one in the log that may begin it. Both have been put into the statistics and
belong to the same run. Which vehicles they belong to is not looked at, so where vehicles share a
run, a duration may begin with an event of another vehicle. `Statistics.putAll_durations` says when
it does not: when every such event of another vehicle is followed by one of the vehicle's own.
-/

namespace NextStop

/-- Whether a travel or dwell time that ends with an event may begin with another one. -/
def Quantity.Begins (q : Quantity) (first last : StopEvent) : Prop :=
  first.time ≤ last.time ∧
    match q with
    | .travel => first.kind = .departure ∧ last.kind = .arrival ∧ last.index = first.index + 1
    | .dwell => first.kind = .arrival ∧ last.kind = .departure ∧ last.index = first.index

instance : (q : Quantity) → (first last : StopEvent) → Decidable (q.Begins first last)
  | .travel, _, _ => inferInstanceAs (Decidable (_ ∧ _))
  | .dwell, _, _ => inferInstanceAs (Decidable (_ ∧ _))

namespace EventLog

/-- The event of a log that a duration begins with: the newest one that may begin it. -/
def beginning? (l : EventLog) (q : Quantity) (last : StopEvent) : Option StopEvent :=
  l.latest? fun first => q.Begins first last

/-- The last event of a log that may begin a duration. -/
structure Begun (l : EventLog) (q : Quantity) (first last : StopEvent) : Prop where
  mem : first ∈ l.toList
  begins : q.Begins first last
  latest : ∀ e ∈ l.toList, q.Begins e last → e.time ≤ first.time

/-- Every event of another vehicle that may begin a duration is followed by one of the vehicle that
ends it. -/
def Unbroken (l : EventLog) (q : Quantity) (last : StopEvent) : Prop :=
  ∀ other ∈ l.toList, q.Begins other last → other.vehicle ≠ last.vehicle →
    ∃ own ∈ l.toList, q.Begins own last ∧ own.vehicle = last.vehicle ∧ other.time < own.time

theorem Begun.vehicle_eq {l : EventLog} {q : Quantity} {first last : StopEvent}
    (h : l.Begun q first last) (hunbroken : l.Unbroken q last) : first.vehicle = last.vehicle := by
  by_contra hother
  obtain ⟨own, hmem, hbegins, -, hlater⟩ := hunbroken first h.mem h.begins hother
  have hle := h.latest own hmem hbegins
  omega

/-- In a log in order, the newest event that may begin a duration is the latest one. -/
theorem begun_of_beginning? {l : EventLog} (hl : InOrder l.toList) {q : Quantity}
    {first last : StopEvent} (h : l.beginning? q last = some first) : l.Begun q first last := by
  rw [InOrder, toList, List.pairwise_reverse] at hl
  obtain ⟨hfirst, later, earlier, hsplit, hlater⟩ := List.find?_eq_some_iff_append.mp h
  rw [hsplit] at hl
  refine ⟨?_, of_decide_eq_true hfirst, fun e he hbegins => ?_⟩
  · rw [toList, List.mem_reverse, hsplit]
    exact List.mem_append_right _ List.mem_cons_self
  · rw [toList, List.mem_reverse, hsplit, List.mem_append, List.mem_cons] at he
    rcases he with hbefore | rfl | hafter
    · have hfails := hlater e hbefore
      rw [decide_eq_true hbegins] at hfails
      contradiction
    · exact Int.le_refl _
    · exact (List.pairwise_cons.mp (List.pairwise_append.mp hl).2.1).1 e hafter

theorem previousDeparture?_eq (l : EventLog) {last : StopEvent} (hkind : last.kind = .arrival) :
    l.previousDeparture? last = l.beginning? .travel last := by
  rw [previousDeparture?, beginning?]
  split
  · rename_i hindex
    refine (List.find?_eq_none.mpr fun e _ => ?_).symm
    simp [Quantity.Begins, hindex]
  · refine congrArg l.latest? (funext fun e => ?_)
    have hindex : (e.index == last.index - 1) = decide (last.index = e.index + 1) := by
      rw [Bool.eq_iff_iff, beq_iff_eq, decide_eq_true_eq]
      omega
    cases hfirst : e.kind <;>
      simp [StopEvent.isDepartureAt, Quantity.Begins, StopEventKind.isDeparture, hfirst, hkind,
        hindex, Bool.decide_and]

theorem matchingArrival?_eq (l : EventLog) {last : StopEvent} (hkind : last.kind = .departure) :
    l.matchingArrival? last = l.beginning? .dwell last := by
  rw [matchingArrival?, beginning?]
  refine congrArg l.latest? (funext fun e => ?_)
  have hindex : (e.index == last.index) = decide (last.index = e.index) := by
    rw [Bool.eq_iff_iff, beq_iff_eq, decide_eq_true_eq, eq_comm]
  cases hfirst : e.kind <;>
    simp [StopEvent.isArrivalAt, Quantity.Begins, StopEventKind.isArrival, hfirst, hkind, hindex,
      Bool.decide_and]

theorem begun_of_previousDeparture? {l : EventLog} (hl : InOrder l.toList)
    {first last : StopEvent} (hkind : last.kind = .arrival)
    (h : l.previousDeparture? last = some first) : l.Begun .travel first last :=
  begun_of_beginning? hl (l.previousDeparture?_eq hkind ▸ h)

theorem begun_of_matchingArrival? {l : EventLog} (hl : InOrder l.toList)
    {first last : StopEvent} (hkind : last.kind = .departure)
    (h : l.matchingArrival? last = some first) : l.Begun .dwell first last :=
  begun_of_beginning? hl (l.matchingArrival?_eq hkind ▸ h)

theorem mem_push {l : EventLog} {d e : StopEvent} :
    d ∈ (l.push e).toList ↔ d = e ∨ d ∈ l.toList := by
  rw [toList, List.mem_reverse, push, mem_insert, toList, List.mem_reverse]

end EventLog

namespace Statistics

variable {α : Type}

/-- The logs are in order, and hold only events that belong to them and that are in a list. -/
structure LogsOnly (s : Statistics α) (events : List StopEvent) : Prop where
  runs : s.runs.AllEntries fun k log =>
    EventLog.InOrder log.toList ∧ ∀ e ∈ log.toList, e ∈ events ∧ s.runKey e = k
  stops : s.stops.AllEntries fun _ log => ∀ e ∈ log.toList, e ∈ events

/-- How a duration is measured: between the event that ends it and the last event in the log of its
run that may begin it. -/
structure Measured (s : Statistics α) (events : List StopEvent) (log : EventLog) (q : Quantity)
    (first last : StopEvent) (duration : Int) : Prop where
  last_mem : last ∈ events
  log_mem : ∀ e ∈ log.toList, e ∈ events ∧ s.runKey e = s.runKey last
  begun : log.Begun q first last
  eq : duration = last.time - first.time

/-- The statistics after events were put into them, each at a reading of the clock. -/
def putAll [Scalar α] (s : Statistics α) (puts : List (Int × StopEvent)) : Statistics α :=
  puts.foldl (fun s p => s.put p.1 p.2) s

theorem settings_putAll [Scalar α] (s : Statistics α) (puts : List (Int × StopEvent)) :
    (s.putAll puts).settings = s.settings := by
  induction puts generalizing s with
  | nil => rfl
  | cons p rest ih => exact (ih (s.put p.1 p.2)).trans (s.put_same p.1 p.2).settings

theorem WellKept.putAll [Scalar α] {s : Statistics α} (h : s.WellKept)
    (puts : List (Int × StopEvent)) : (s.putAll puts).WellKept := by
  induction puts generalizing s with
  | nil => exact h
  | cons p rest ih => exact ih (h.put p.1 p.2)

theorem LogsOnly.empty [Scalar α] (settings : Settings α) :
    (Statistics.empty settings).LogsOnly [] where
  runs := ExpiringCache.AllEntries.empty _ _ _
  stops := ExpiringCache.AllEntries.empty _ _ _

variable {s : Statistics α} {events : List StopEvent}

/-- The log of a run is in order, and holds only events of the run. -/
theorem LogsOnly.run? (h : s.LogsOnly events) {now : Int} {k : RunKey} {log : EventLog}
    (hlog : s.run? now k = some log) :
    EventLog.InOrder log.toList ∧ ∀ e ∈ log.toList, e ∈ events ∧ s.runKey e = k :=
  h.runs.of_get? hlog

/-- So is the log of the run of an event that is put in. -/
theorem LogsOnly.runWith (h : s.LogsOnly events) (now : Int) (e : StopEvent) :
    EventLog.InOrder (s.runWith now e).toList ∧
      ∀ x ∈ (s.runWith now e).toList, x ∈ events ++ [e] ∧ s.runKey x = s.runKey e := by
  obtain ⟨horder, hmem⟩ : EventLog.InOrder ((s.run? now (s.runKey e)).getD .empty).toList ∧
      ∀ x ∈ ((s.run? now (s.runKey e)).getD .empty).toList,
        x ∈ events ∧ s.runKey x = s.runKey e := by
    cases hlog : s.run? now (s.runKey e) with
    | none => exact ⟨.nil, nofun⟩
    | some log => exact h.run? hlog
  rw [Statistics.runWith]
  refine ⟨EventLog.inOrder_push horder e, fun x hx => ?_⟩
  rcases EventLog.mem_push.mp hx with rfl | hx
  · exact ⟨List.mem_append_right _ (List.mem_singleton_self x), rfl⟩
  · exact ⟨List.mem_append_left _ (hmem x hx).1, (hmem x hx).2⟩

/-- An event that is put in enters the log of its run and that of its stop and day. -/
theorem LogsOnly.put [Scalar α] (h : s.LogsOnly events) (now : Int) (e : StopEvent) :
    (s.put now e).LogsOnly (events ++ [e]) := by
  have hsame := s.put_same now e
  constructor
  · rw [runKey_eq_of_settings hsame.settings, hsame.runs]
    refine h.runs.put (h.runWith now e) (fun k log _ hlog => ?_) now
    exact ⟨hlog.1, fun x hx => ⟨List.mem_append_left _ (hlog.2 x hx).1, (hlog.2 x hx).2⟩⟩
  · have hstops : (s.put now e).stops = s.stops.update now (stopDayKey e)
        fun log => (log.getD .empty).push e := hsame.stops
    rw [hstops]
    refine h.stops.update (fun log hlog => ?_) (fun _ log _ hlog => ?_) now
    · intro x hx
      rcases EventLog.mem_push.mp hx with rfl | hx
      · exact List.mem_append_right _ (List.mem_singleton_self x)
      · cases log with
        | none => contradiction
        | some log => exact List.mem_append_left _ (hlog log rfl x hx)
    · exact fun x hx => List.mem_append_left _ (hlog x hx)

theorem logsOnly_putAll [Scalar α] (settings : Settings α) (puts : List (Int × StopEvent)) :
    ((Statistics.empty settings).putAll puts).LogsOnly (puts.map Prod.snd) := by
  induction puts using List.reverseRecOn with
  | nil => exact .empty settings
  | append_singleton puts p ih =>
    rw [putAll, List.foldl_append, List.map_append]
    exact ih.put p.1 p.2

/-! ## Looking up -/

/-- The event that a lookup starts from is of another vehicle and of the kind that is looked
for. -/
theorem LogsOnly.lastVehicleEvent? (h : s.LogsOnly events) {now : Int} {seg : Segment α}
    {o : Observer} {kind : StopEventKind} {e : StopEvent}
    (he : s.lastVehicleEvent? now seg o kind = some e) :
    e ∈ events ∧ e.kind = kind ∧ e.vehicle ≠ o.vehicle := by
  obtain ⟨log, hlog, hlatest⟩ := Option.bind_eq_some_iff.mp he
  have hmem := List.mem_of_find?_eq_some hlatest
  have htest := List.find?_some hlatest
  simp only [Bool.and_eq_true, beq_iff_eq, bne_iff_ne] at htest
  obtain ⟨⟨⟨⟨⟨-, hkind⟩, hvehicle⟩, -⟩, -⟩, -⟩ := htest
  exact ⟨h.stops.of_get? hlog e (List.mem_reverse.mpr hmem), hkind, hvehicle⟩

/-- A duration that is looked up: from the latest fitting event of another vehicle back to the
event in the log of its run that `find` takes for the beginning. -/
theorem LogsOnly.lookup (h : s.LogsOnly events) {now : Int} {seg : Segment α} {o : Observer}
    {kind : StopEventKind} {q : Quantity} {find : EventLog → StopEvent → Option StopEvent}
    {accepts : Int → Bool} {duration : Int}
    (hfind : ∀ (log : EventLog) (first last : StopEvent), EventLog.InOrder log.toList →
      last.kind = kind → find log last = some first → log.Begun q first last)
    (hd : ((s.lastVehicleEvent? now seg o kind).bind fun last =>
      (s.run? now (s.runKey last)).bind fun log => (find log last).bind fun first =>
        if accepts (last.time - first.time) then some (last.time - first.time) else none) =
      some duration) :
    ∃ log first last, s.run? now (s.runKey last) = some log ∧
      s.Measured events log q first last duration ∧ last.vehicle ≠ o.vehicle := by
  obtain ⟨last, hlast, hd⟩ := Option.bind_eq_some_iff.mp hd
  obtain ⟨log, hlog, hd⟩ := Option.bind_eq_some_iff.mp hd
  obtain ⟨first, hfirst, hd⟩ := Option.bind_eq_some_iff.mp hd
  obtain ⟨hmem, hkind, hvehicle⟩ := h.lastVehicleEvent? hlast
  obtain ⟨horder, hlog_mem⟩ := h.run? hlog
  split at hd
  · obtain rfl := Option.some.inj hd
    have hbegun := hfind log first last horder hkind hfirst
    exact ⟨log, first, last, hlog, ⟨hmem, hlog_mem, hbegun, rfl⟩, hvehicle⟩
  · contradiction

/-! ## Recording -/

/-- Whether a write adds to a mean. -/
def Write.IsMean (w : Write α) : Prop := w.shelf = .scheduleMeans ∨ w.shelf = .frequencyMeans

variable [Scalar α]

theorem mem_travelWrites {log : EventLog} {arrival : StopEvent} {w : Write α}
    (hw : w ∈ s.travelWrites log arrival) :
    ∃ departure, log.previousDeparture? arrival = some departure ∧
      w = meanWrite arrival.frequencyBased (s.eventPathKey .travel arrival)
        (arrival.time - departure.time) := by
  rw [travelWrites] at hw
  split at hw
  · contradiction
  · rename_i departure hdeparture
    dsimp only at hw
    split at hw
    · exact ⟨departure, hdeparture, List.mem_singleton.mp hw⟩
    · contradiction

theorem mem_dwellWrites {log : EventLog} {departure : StopEvent} {headway : Option Int}
    {w : Write α} (hw : w ∈ s.dwellWrites log departure headway) (hmean : w.IsMean) :
    ∃ arrival, log.matchingArrival? departure = some arrival ∧
      w = meanWrite departure.frequencyBased (s.eventPathKey .dwell departure)
        (departure.time - arrival.time) := by
  rw [dwellWrites] at hw
  split at hw
  · contradiction
  · rename_i arrival harrival
    dsimp only at hw
    split at hw
    · rcases List.mem_cons.mp hw with rfl | hsample
      · exact ⟨arrival, harrival, rfl⟩
      · obtain ⟨gap, -, rfl⟩ := List.mem_map.mp hsample
        rcases hmean with hshelf | hshelf <;> cases hshelf
    · contradiction

/-- What an event adds to the means when it is put in. -/
theorem LogsOnly.putWrites (h : s.LogsOnly events) {now : Int} {e : StopEvent} {w : Write α}
    (hw : w ∈ s.putWrites now e) (hmean : w.IsMean) :
    ∃ q first duration, w = meanWrite e.frequencyBased (s.eventPathKey q e) duration ∧
      s.Measured (events ++ [e]) (s.runWith now e) q first e duration := by
  obtain ⟨horder, hmem⟩ := h.runWith now e
  have hlast : e ∈ events ++ [e] := List.mem_append_right _ (List.mem_singleton_self e)
  rw [Statistics.putWrites, List.mem_cons, List.mem_append, List.mem_singleton] at hw
  rcases hw with rfl | hw | rfl
  · rcases hmean with hshelf | hshelf <;> cases hshelf
  · cases hkind : e.kind with
    | arrival =>
      rw [hkind] at hw
      obtain ⟨first, hfirst, hwrite⟩ := mem_travelWrites hw
      have hbegun := EventLog.begun_of_previousDeparture? horder hkind hfirst
      exact ⟨.travel, first, _, hwrite, hlast, hmem, hbegun, rfl⟩
    | departure =>
      rw [hkind] at hw
      obtain ⟨first, hfirst, hwrite⟩ := mem_dwellWrites hw hmean
      have hbegun := EventLog.begun_of_matchingArrival? horder hkind hfirst
      exact ⟨.dwell, first, _, hwrite, hlast, hmem, hbegun, rfl⟩
  · rcases hmean with hshelf | hshelf <;> cases hshelf

/-- Whatever is put in at whatever times, every travel and dwell time that is looked up, and every
one that is added to a mean, lies between two events of one run that were put in, and the lookups
end with a vehicle other than the observer. It begins with the last event in the log of the run that
may begin it, which is of the same vehicle unless another vehicle of the run came after it. -/
theorem putAll_durations (settings : Settings α) (puts : List (Int × StopEvent)) :
    let s := (Statistics.empty settings).putAll puts
    let events := puts.map Prod.snd
    (∀ now seg o duration, s.lastVehicleTravel? now seg o = some duration →
      ∃ log first last, s.run? now (s.runKey last) = some log ∧
        s.Measured events log .travel first last duration ∧ last.vehicle ≠ o.vehicle ∧
        (log.Unbroken .travel last → first.vehicle = last.vehicle)) ∧
    (∀ now seg o duration, s.lastVehicleDwell? now seg o = some duration →
      ∃ log first last, s.run? now (s.runKey last) = some log ∧
        s.Measured events log .dwell first last duration ∧ last.vehicle ≠ o.vehicle ∧
        (log.Unbroken .dwell last → first.vehicle = last.vehicle)) ∧
    ∀ now e, s.put now e = s.writeAll now (s.putWrites now e) ∧
      ∀ w ∈ s.putWrites now e, w.IsMean →
        ∃ q first duration, w = meanWrite e.frequencyBased (s.eventPathKey q e) duration ∧
          s.Measured (events ++ [e]) (s.runWith now e) q first e duration ∧
          ((s.runWith now e).Unbroken q e → first.vehicle = e.vehicle) := by
  intro s events
  have h : s.LogsOnly events := logsOnly_putAll settings puts
  refine ⟨fun now seg o duration hd => ?_, fun now seg o duration hd => ?_, fun now e =>
    ⟨s.put_eq_writeAll now e, fun w hw hmean => ?_⟩⟩
  · obtain ⟨log, first, last, hlog, hmeasured, hvehicle⟩ :=
      h.lookup (fun _ _ _ horder hkind => EventLog.begun_of_previousDeparture? horder hkind) hd
    exact ⟨log, first, last, hlog, hmeasured, hvehicle, hmeasured.begun.vehicle_eq⟩
  · obtain ⟨log, first, last, hlog, hmeasured, hvehicle⟩ :=
      h.lookup (fun _ _ _ horder hkind => EventLog.begun_of_matchingArrival? horder hkind) hd
    exact ⟨log, first, last, hlog, hmeasured, hvehicle, hmeasured.begun.vehicle_eq⟩
  · obtain ⟨q, first, duration, hwrite, hmeasured⟩ := h.putWrites hw hmean
    exact ⟨q, first, duration, hwrite, hmeasured, hmeasured.begun.vehicle_eq⟩

/-- A tram and a bus on one run: the dwell time of the tram, looked up for the bus, begins with the
arrival of the bus, although the tram has been there for three times as long. -/
example :
    let stops : List (StopPath Rat) :=
      ["harbour", "market"].map fun stop => ⟨stop, 60000, 0, 0, false, none⟩
    let trip : Trip Rat := ⟨"line", "1", none, "block", "weekdays", false, 0, stops⟩
    let seen (vehicle : VehicleId) (kind : StopEventKind) (time : Int) : StopEvent :=
      ⟨vehicle, "line", "1", none, "block", "market", 1, time, kind, Date.ofDays 0, 0, false, none⟩
    let s := (Statistics.empty .standard).putAll [(30000, seen "tram" .arrival 0),
      (30000, seen "bus" .arrival 20000), (30000, seen "tram" .departure 30000)]
    s.lastVehicleDwell? 30000 ⟨trip, 1⟩ ⟨"bus", Date.ofDays 0, 30000⟩ = some 10000 := by
  decide +kernel

end Statistics

end NextStop
