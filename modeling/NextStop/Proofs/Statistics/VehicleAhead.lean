import NextStop.Proofs.Statistics.Durations
import NextStop.Statistics.Gap

/-!
# The vehicle ahead

Headways are looked up in the logs of stops, newest event first, while the events that are in these
logs may have been put in late and in any order. As long as nothing is lost, a headway is the
smallest gap to any departure that a whole history has for it, whatever the order of the history,
`Statistics.putAll_headway`; of departures at the same time, the one that was put in last counts.
A gap that does not fit into 64 bits is reported as what they keep of it.
-/

namespace NextStop

namespace Placement

variable {α : Type} [Scalar α]

/-- The stop that a vehicle is at, or else the one that its stop path leads to. -/
def stop? (p : Placement α) (trip : Trip α) (defaultRadius : α) : Option StopId :=
  let path? := match p.atStop? trip defaultRadius with
    | some stop => trip.stopPath? stop
    | none => trip.stopPath? p.index
  path?.map StopPath.stop

/-- Whether an event is a departure that an observer on a trip may follow: from its stop on its
service day, of another vehicle of the same route and direction, and not after its time. -/
def Follows (p : Placement α) (trip : Trip α) (defaultRadius : α) (o : Observer)
    (e : StopEvent) : Prop :=
  e.kind = .departure ∧ p.stop? trip defaultRadius = some e.stop ∧
    e.serviceDate = o.serviceDate ∧ e.vehicle ≠ o.vehicle ∧ e.route = trip.route ∧
    e.direction = trip.direction ∧ e.time ≤ o.time

instance (p : Placement α) (trip : Trip α) (defaultRadius : α) (o : Observer) (e : StopEvent) :
    Decidable (p.Follows trip defaultRadius o e) :=
  inferInstanceAs (Decidable (_ ∧ _))

end Placement

namespace Statistics

variable {α : Type} [Scalar α]

/-! ## Histories of stops -/

/-- Events that are put in one after the other, each at a reading of the clock, find no expired log
of their stop and take no such log away, and in the end none has expired. -/
def RetainsStops (now : Int) : Statistics α → List (Int × StopEvent) → Prop
  | s, [] => s.stops.AllLive now
  | s, p :: rest =>
    s.stops.Retains (s.put p.1 p.2).stops p.1 (stopDayKey p.2) ∧
      RetainsStops now (s.put p.1 p.2) rest

instance decidableRetainsStops (now : Int) :
    (s : Statistics α) → (puts : List (Int × StopEvent)) → Decidable (RetainsStops now s puts)
  | s, [] => inferInstanceAs (Decidable (s.stops.AllLive now))
  | s, p :: rest =>
    have := decidableRetainsStops now (s.put p.1 p.2) rest
    inferInstanceAs (Decidable (_ ∧ _))

variable {s : Statistics α} {now : Int} {events : List StopEvent}

/-- The stops then have the logs of all events. -/
theorem RetainsStops.holdsLogs {puts : List (Int × StopEvent)} (hretains : s.RetainsStops now puts)
    (h : s.stops.HoldsLogs stopDayKey events) :
    (s.putAll puts).stops.HoldsLogs stopDayKey (events ++ puts.map Prod.snd) ∧
      (s.putAll puts).stops.AllLive now := by
  induction puts generalizing s events with
  | nil =>
    rw [List.map_nil, List.append_nil]
    exact ⟨h, hretains⟩
  | cons p rest ih =>
    have hrest := ih hretains.2 (holdsLogs_stops_put h hretains.1)
    rwa [List.append_assoc] at hrest

/-! ## Headways -/

omit [Scalar α] in
/-- The departure ahead is the last one, in the order of time, of those that may be followed. -/
theorem departureAhead?_of_holdsLogs (h : s.stops.HoldsLogs stopDayKey events)
    (hlive : s.stops.AllLive now) (a : Approach) (o : Observer) :
    s.departureAhead? now a o =
      ((events.filter fun e => e.kind = .departure ∧ e.stop = a.stop ∧
        e.serviceDate = o.serviceDate ∧ e.vehicle ≠ o.vehicle ∧ e.route = a.route ∧
        e.direction = a.direction ∧ e.time ≤ o.time).mergeSort (·.time ≤ ·.time)).getLast? := by
  have hbind : ∀ (p : StopEvent → Bool) (logged : List StopEvent),
      (EventLog.ofEvents? logged).bind (·.latest? p) = (EventLog.ofEvents logged).latest? p := by
    intro p logged
    cases logged <;> rfl
  rw [departureAhead?, stopDay?, hlive.get?_eq, h, hbind, EventLog.latest?_ofEvents,
    List.filter_filter]
  congr 2
  refine List.filter_congr fun e _ => ?_
  have hkind : e.kind.isDeparture = true ↔ e.kind = .departure := by
    cases e.kind <;> simp [StopEventKind.isDeparture]
  rw [Bool.eq_iff_iff]
  simp only [Bool.and_eq_true, decide_eq_true_eq, beq_iff_eq, bne_iff_ne, hkind, stopDayKey,
    StopDayKey.mk.injEq]
  tauto

/-- So a headway is the gap to this departure. -/
theorem headway?_of_holdsLogs (h : s.stops.HoldsLogs stopDayKey events)
    (hlive : s.stops.AllLive now) (trip : Trip α) (p : Placement α) (o : Observer) :
    s.headway? now trip p o =
      (((events.filter fun e => p.Follows trip s.settings.defaultRadius o e).mergeSort
        (·.time ≤ ·.time)).getLast?).map fun e =>
          ⟨o.vehicle, e.vehicle, trip.route, trip.id, e.stop, Time.wrap (o.time - e.time),
            o.time⟩ := by
  have hpath : p.stop? trip s.settings.defaultRadius = (trip.stopPath?
      ((p.atStop? trip s.settings.defaultRadius).getD p.index)).map StopPath.stop := by
    rw [Placement.stop?]
    cases p.atStop? trip s.settings.defaultRadius <;> rfl
  rw [headway?]
  cases hstop : trip.stopPath? ((p.atStop? trip s.settings.defaultRadius).getD p.index) with
  | none =>
    have hnone : (events.filter fun e => p.Follows trip s.settings.defaultRadius o e) = [] := by
      refine List.filter_eq_nil_iff.mpr fun e _ => ?_
      simp [Placement.Follows, hpath, hstop]
    rw [hnone, List.mergeSort_nil]
    rfl
  | some path =>
    have hfollows : (events.filter fun e => p.Follows trip s.settings.defaultRadius o e) =
        events.filter fun e => e.kind = .departure ∧ e.stop = path.stop ∧
          e.serviceDate = o.serviceDate ∧ e.vehicle ≠ o.vehicle ∧ e.route = trip.route ∧
          e.direction = trip.direction ∧ e.time ≤ o.time := by
      refine List.filter_congr fun e _ => ?_
      simp only [Placement.Follows, hpath, hstop, Option.map_some, Option.some.injEq,
        eq_comm (a := path.stop)]
    rw [Option.bind_some, departureAhead?_of_holdsLogs h hlive, ← hfollows]
    refine Option.map_congr fun e he => ?_
    have hmem := List.mem_mergeSort.mp (List.mem_of_getLast? he)
    have hstop : path.stop = e.stop := by
      have htest := (of_decide_eq_true (List.mem_filter.mp hmem).2).2.1
      rwa [hpath, hstop, Option.map_some, Option.some.injEq] at htest
    rw [hstop]

end Statistics

end NextStop
