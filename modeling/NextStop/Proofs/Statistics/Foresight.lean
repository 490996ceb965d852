import NextStop.Proofs.Statistics.Durations
import NextStop.Statistics.Gap

/-!
# No foresight

Events may be put in late or be replayed, so the logs may hold events from after the time that a
question is about. They play no part in the answer: an event of a later time is passed over by every
look into a log that is bounded by an earlier one, `EventLog.latest?_push`. A question about the
last vehicle looks into two logs, that of the stop and then that of the run of the vehicle found
there. The second look is bounded by the time of that vehicle, which the first one bounds. What
remains is that an event may push logs out of the caches, or make a log last for longer; apart from
this, events of later times change no answer as of a time, `Statistics.put_foresees_nothing`.
-/

namespace NextStop

namespace EventLog

/-- An event that fails a test is passed over. -/
theorem latest?_push {l : EventLog} {e : StopEvent} {p : StopEvent → Bool} (h : p e = false) :
    (l.push e).latest? p = l.latest? p := by
  rw [latest?, latest?, push]
  induction l.newestFirst with
  | nil => rw [insert, List.find?_cons_of_neg (by simp [h])]
  | cons d rest ih =>
    rw [insert]
    split
    · rw [List.find?_cons_of_neg (by simp [h])]
    · rw [List.find?_cons, List.find?_cons, ih]

/-- Whether a test fails on all events after a time. -/
def Bounded (t : Int) (p : StopEvent → Bool) : Prop := ∀ e : StopEvent, t < e.time → p e = false

theorem bounded_of_le {t : Int} {p : StopEvent → Bool} (h : ∀ e, p e = true → e.time ≤ t) :
    Bounded t p := by
  intro e hlate
  by_contra hp
  have hle := h e (by simpa using hp)
  omega

/-- Two logs, which there may not be, in which the same is found up to a time. -/
def SameUntil (t : Int) (l l' : Option EventLog) : Prop :=
  ∀ p, Bounded t p → l'.bind (·.latest? p) = l.bind (·.latest? p)

theorem SameUntil.refl (t : Int) (l : Option EventLog) : SameUntil t l l := fun _ _ => rfl

theorem SameUntil.trans {t : Int} {l l' l'' : Option EventLog} (h : SameUntil t l l')
    (h' : SameUntil t l' l'') : SameUntil t l l'' :=
  fun p hp => (h' p hp).trans (h p hp)

/-- An event of a later time is not found, not even in a log that is made for it. -/
theorem SameUntil.push {t : Int} {e : StopEvent} (hlate : t < e.time) (l : Option EventLog) :
    SameUntil t l (some ((l.getD .empty).push e)) := by
  intro p hp
  rw [Option.bind_some, latest?_push (hp e hlate)]
  cases l <;> rfl

variable {t : Int} {l l' : Option EventLog} (h : SameUntil t l l') {e : StopEvent}
  (he : e.time ≤ t)

include h he

theorem SameUntil.previousDeparture?_eq :
    (l'.bind fun log => log.previousDeparture? e) = l.bind fun log => log.previousDeparture? e := by
  by_cases hfirst : e.index = 0
  · simp [previousDeparture?, hfirst]
  · simp only [previousDeparture?, if_neg hfirst]
    refine h _ (bounded_of_le fun d hd => ?_)
    rw [Bool.and_eq_true, decide_eq_true_eq] at hd
    exact Int.le_trans hd.1 he

theorem SameUntil.matchingArrival?_eq :
    (l'.bind fun log => log.matchingArrival? e) = l.bind fun log => log.matchingArrival? e := by
  simp only [matchingArrival?]
  refine h _ (bounded_of_le fun a ha => ?_)
  rw [Bool.and_eq_true, decide_eq_true_eq] at ha
  exact Int.le_trans ha.1 he

end EventLog

namespace ExpiringCache

variable {κ β : Type} [Ord κ]

/-- What a cache holds under a key has not expired. -/
def Unexpired (c : ExpiringCache κ β) (reading : Int) (k : κ) : Prop :=
  ∀ e ∈ c.entries[k]?, c.isLive reading e = true

instance (c : ExpiringCache κ β) (reading : Int) (k : κ) : Decidable (c.Unexpired reading k) :=
  inferInstanceAs (Decidable (∀ e ∈ c.entries[k]?, c.isLive reading e = true))

/-- A write under a key pushes nothing out that counts at a later reading of the clock. It has not
expired then, and neither has what it was written over, then or at the reading of the write. -/
def Keeps (c c' : ExpiringCache κ β) (now later : Int) (k : κ) : Prop :=
  c.Spares c' later ∧ (c.Unexpired now k ∧ c.Unexpired later k) ∧ c'.Unexpired later k

instance [DecidableEq κ] (c c' : ExpiringCache κ β) (now later : Int) (k : κ) :
    Decidable (c.Keeps c' now later k) :=
  inferInstanceAs (Decidable (_ ∧ (_ ∧ _) ∧ _))

variable [Std.TransOrd κ] [Std.LawfulEqOrd κ]

/-- A write that finds nothing expired and loses nothing is still kept at its own reading. -/
theorem WellKept.keeps_of_retains {c : ExpiringCache κ β} (h : c.WellKept) {now : Int}
    {change : Change κ β} (hretains : c.Retains (c.perform (now, change)) now change.key) :
    c.Keeps (c.perform (now, change)) now now change.key := by
  refine ⟨?_, ⟨hretains.1, hretains.1⟩, fun e he => ?_⟩
  · exact spares_of_keys (fun k hk => hretains.2 k (List.mem_cons_of_mem _ hk)) now
  · obtain rfl := Option.some.inj ((h.getElem?_perform_self change).symm.trans he)
    exact (h.perform change).isLive_of_written rfl

/-- What is found after a write, at the later reading of the clock. -/
theorem WellKept.get?_perform [DecidableEq κ] {c : ExpiringCache κ β} (h : c.WellKept)
    {now later : Int} {change : Change κ β}
    (hkeeps : c.Keeps (c.perform (now, change)) now later change.key) (k : κ) :
    (c.perform (now, change)).get? later k =
      if change.key = k then some (change.valueIn c now) else c.get? later k := by
  obtain ⟨hspares, -, hafter⟩ := hkeeps
  have hself : (c.perform (now, change)).entries[change.key]? =
      some ⟨change.valueIn c now, now, c.nextGeneration⟩ := h.getElem?_perform_self change
  split
  · rename_i hk
    subst hk
    exact get?_of_entry hself (hafter _ hself)
  · rename_i hk
    exact h.get?_perform_of_ne hspares hk

/-- A log that is pushed an event of a later time shows the same up to a time, and all other logs
are the same. -/
theorem WellKept.sameUntil_perform [DecidableEq κ] {c : ExpiringCache κ EventLog} (h : c.WellKept)
    {now later : Int} {change : Change κ EventLog}
    (hkeeps : c.Keeps (c.perform (now, change)) now later change.key) {t : Int} {e : StopEvent}
    (hlate : t < e.time)
    (hpush : change.valueIn c now = ((c.get? now change.key).getD .empty).push e) (k : κ) :
    EventLog.SameUntil t (c.get? later k) ((c.perform (now, change)).get? later k) := by
  rw [h.get?_perform hkeeps]
  split
  · rename_i hk
    subst hk
    obtain ⟨-, ⟨hnow, hlater⟩, -⟩ := hkeeps
    have hsame : c.get? now change.key = c.get? later change.key := by
      rw [get?_of_live hnow, get?_of_live hlater]
    rw [hpush, hsame]
    exact .push hlate _
  · exact .refl t _

end ExpiringCache

namespace Statistics

variable {α : Type}

/-! ## Questions as of a time -/

/-- Statistics in whose histories the same is found up to a time, at a reading of the clock. -/
structure SameUntil (t now : Int) (s s' : Statistics α) : Prop where
  settings : s'.settings = s.settings
  run? : ∀ k, EventLog.SameUntil t (s.run? now k) (s'.run? now k)
  stopDay? : ∀ k, EventLog.SameUntil t (s.stopDay? now k) (s'.stopDay? now k)

/-- The event that is found at a stop bounds what is looked for in the log of its run. -/
theorem time_le_of_lastVehicleEvent? {s : Statistics α} {now : Int} {seg : Segment α} {o : Observer}
    {kind : StopEventKind} {e : StopEvent} (he : s.lastVehicleEvent? now seg o kind = some e) :
    e.time ≤ o.time := by
  obtain ⟨log, -, hlatest⟩ := Option.bind_eq_some_iff.mp he
  have htest := List.find?_some hlatest
  simp only [Bool.and_eq_true, decide_eq_true_eq] at htest
  exact htest.1.1.1.1.1.1

namespace SameUntil

theorem refl (t now : Int) (s : Statistics α) : SameUntil t now s s :=
  ⟨rfl, fun _ => .refl t _, fun _ => .refl t _⟩

theorem trans {t now : Int} {s s' s'' : Statistics α} (h : SameUntil t now s s')
    (h' : SameUntil t now s' s'') : SameUntil t now s s'' :=
  ⟨h'.settings.trans h.settings, fun k => (h.run? k).trans (h'.run? k),
    fun k => (h.stopDay? k).trans (h'.stopDay? k)⟩

variable {now : Int} {s s' : Statistics α} {o : Observer} (h : SameUntil o.time now s s')

include h

theorem departureAhead?_eq (a : Approach) :
    s'.departureAhead? now a o = s.departureAhead? now a o := by
  rw [departureAhead?, departureAhead?]
  refine h.stopDay? _ _ (EventLog.bounded_of_le fun e he => ?_)
  simp only [Bool.and_eq_true, decide_eq_true_eq] at he
  exact he.1.1.1.1

theorem lastVehicleEvent?_eq (seg : Segment α) (kind : StopEventKind) :
    s'.lastVehicleEvent? now seg o kind = s.lastVehicleEvent? now seg o kind := by
  rw [lastVehicleEvent?, lastVehicleEvent?, h.settings]
  refine h.stopDay? _ _ (EventLog.bounded_of_le fun e he => ?_)
  simp only [Bool.and_eq_true, decide_eq_true_eq] at he
  exact he.1.1.1.1.1.1

theorem lastVehicleTravel?_eq (seg : Segment α) :
    s'.lastVehicleTravel? now seg o = s.lastVehicleTravel? now seg o := by
  rw [lastVehicleTravel?, lastVehicleTravel?, h.lastVehicleEvent?_eq, h.settings,
    runKey_eq_of_settings h.settings]
  cases harrival : s.lastVehicleEvent? now seg o .arrival with
  | none => rfl
  | some arrival =>
    have hbound := time_le_of_lastVehicleEvent? harrival
    rw [Option.bind_some, Option.bind_some, ← Option.bind_assoc, ← Option.bind_assoc,
      (h.run? _).previousDeparture?_eq hbound]

theorem lastVehicleDwell?_eq (seg : Segment α) :
    s'.lastVehicleDwell? now seg o = s.lastVehicleDwell? now seg o := by
  rw [lastVehicleDwell?, lastVehicleDwell?, h.lastVehicleEvent?_eq, h.settings,
    runKey_eq_of_settings h.settings]
  cases hdeparture : s.lastVehicleEvent? now seg o .departure with
  | none => rfl
  | some departure =>
    have hbound := time_le_of_lastVehicleEvent? hdeparture
    rw [Option.bind_some, Option.bind_some, ← Option.bind_assoc, ← Option.bind_assoc,
      (h.run? _).matchingArrival?_eq hbound]

theorem headway?_eq [Scalar α] (trip : Trip α) (p : Placement α) :
    s'.headway? now trip p o = s.headway? now trip p o := by
  rw [headway?, headway?, h.settings]
  simp only [h.departureAhead?_eq]

end SameUntil

variable [Scalar α]

/-- Statistics that give the same answers to all questions as of a time about other vehicles, at a
reading of the clock. -/
structure SameAsOf (t now : Int) (s s' : Statistics α) : Prop where
  lastVehicleTravel?_eq : ∀ (seg : Segment α) (o : Observer), o.time = t →
    s'.lastVehicleTravel? now seg o = s.lastVehicleTravel? now seg o
  lastVehicleDwell?_eq : ∀ (seg : Segment α) (o : Observer), o.time = t →
    s'.lastVehicleDwell? now seg o = s.lastVehicleDwell? now seg o
  departureAhead?_eq : ∀ (a : Approach) (o : Observer), o.time = t →
    s'.departureAhead? now a o = s.departureAhead? now a o
  headway?_eq : ∀ (trip : Trip α) (p : Placement α) (o : Observer), o.time = t →
    s'.headway? now trip p o = s.headway? now trip p o

theorem SameUntil.sameAsOf {t now : Int} {s s' : Statistics α} (h : SameUntil t now s s') :
    SameAsOf t now s s' := by
  constructor
  · rintro seg o rfl
    exact h.lastVehicleTravel?_eq seg
  · rintro seg o rfl
    exact h.lastVehicleDwell?_eq seg
  · rintro a o rfl
    exact h.departureAhead?_eq a
  · rintro trip p o rfl
    exact h.headway?_eq trip p

/-! ## Events of later times -/

/-- An event that is put in pushes out no history that counts at a later reading of the clock, and
the histories that it enters have not expired then, neither with nor without it. -/
def Keeps (s : Statistics α) (now later : Int) (e : StopEvent) : Prop :=
  s.runs.Keeps (s.put now e).runs now later (s.runKey e) ∧
    s.stops.Keeps (s.put now e).stops now later (stopDayKey e)

instance (s : Statistics α) (now later : Int) (e : StopEvent) : Decidable (s.Keeps now later e) :=
  inferInstanceAs (Decidable (_ ∧ _))

/-- Events that are put in one after the other, each at a reading of the clock, all keep the
histories until a later reading. -/
def KeepsAll (later : Int) : Statistics α → List (Int × StopEvent) → Prop
  | _, [] => True
  | s, p :: rest => s.Keeps p.1 later p.2 ∧ KeepsAll later (s.put p.1 p.2) rest

instance decidableKeepsAll (later : Int) :
    (s : Statistics α) → (puts : List (Int × StopEvent)) → Decidable (KeepsAll later s puts)
  | _, [] => isTrue trivial
  | s, p :: rest =>
    have := decidableKeepsAll later (s.put p.1 p.2) rest
    inferInstanceAs (Decidable (_ ∧ _))

/-- Of the histories, an event changes the log of its run and that of its stop and day. -/
theorem put_histories (s : Statistics α) (now : Int) (e : StopEvent) :
    (s.put now e).runs = s.runs.perform (now, .put (s.runKey e) (s.runWith now e)) ∧
      (s.put now e).stops = s.stops.perform
        (now, .update (stopDayKey e) fun log => (log.getD .empty).push e) :=
  ⟨(s.put_same now e).runs, (s.put_same now e).stops⟩

theorem sameUntil_put {s : Statistics α} (h : s.WellKept) {t now later : Int} {e : StopEvent}
    (hlate : t < e.time) (hkeeps : s.Keeps now later e) :
    SameUntil t later s (s.put now e) := by
  have hkept : s.runs.WellKept ∧ s.stops.WellKept := ⟨h .runs, h .stops⟩
  obtain ⟨hrun, hstop⟩ := hkeeps
  obtain ⟨hruns, hstops⟩ := s.put_histories now e
  rw [hruns] at hrun
  rw [hstops] at hstop
  refine ⟨(s.put_same now e).settings, fun k => ?_, fun k => ?_⟩
  · rw [Statistics.run?, Statistics.run?, hruns]
    exact hkept.1.sameUntil_perform hrun hlate rfl k
  · rw [Statistics.stopDay?, Statistics.stopDay?, hstops]
    exact hkept.2.sameUntil_perform hstop hlate rfl k

theorem sameUntil_putAll {s : Statistics α} (h : s.WellKept) {t later : Int}
    {puts : List (Int × StopEvent)} (hlate : ∀ p ∈ puts, t < p.2.time)
    (hkeeps : s.KeepsAll later puts) : SameUntil t later s (s.putAll puts) := by
  induction puts generalizing s with
  | nil => exact .refl t later s
  | cons p rest ih =>
    have hfirst := sameUntil_put h (hlate p List.mem_cons_self) hkeeps.1
    exact hfirst.trans (ih (h.put p.1 p.2) (fun q hq => hlate q (List.mem_cons_of_mem p hq))
      hkeeps.2)

theorem keeps_of_retains {s : Statistics α} (h : s.WellKept) {now : Int} {e : StopEvent}
    (hretains : s.Retains now e) : s.Keeps now now e := by
  obtain ⟨hrun, hstop⟩ := hretains
  obtain ⟨hruns, hstops⟩ := s.put_histories now e
  rw [hruns] at hrun
  rw [hstops] at hstop
  constructor
  · rw [hruns]
    exact (h .runs).keeps_of_retains hrun
  · rw [hstops]
    exact (h .stops).keeps_of_retains hstop

/-- An event that finds no expired history and takes none away changes no answer as of a time
before it. More generally, events of later times, put in one after the other whenever, change no
such answer at any later reading of the clock, as long as they push out no history that counts then
and those that they enter do not expire. Statistics are well kept when they come from empty ones by
any writes, `WellKept.empty` and `WellKept.writeAll`. -/
theorem put_foresees_nothing {s : Statistics α} (hkept : s.WellKept) (t : Int) :
    (∀ now e, t < e.time → s.Retains now e → SameAsOf t now s (s.put now e)) ∧
      ∀ later puts, (∀ p ∈ puts, t < p.2.time) → s.KeepsAll later puts →
        SameAsOf t later s (s.putAll puts) := by
  constructor
  · intro now e hlate hretains
    exact (sameUntil_put hkept hlate (keeps_of_retains hkept hretains)).sameAsOf
  · intro later puts hlate hkeeps
    exact (sameUntil_putAll hkept hlate hkeeps).sameAsOf

/-- After a tram, a coach of the same run arrives. That changes the travel time of the last vehicle
as of a time after its arrival, but not as of one before it, neither at once nor when a dwell time
has been put in as well. -/
theorem put_foresees_nothing_coach :
    let stops : List (StopPath Rat) :=
      ["harbour", "market"].map fun stop => ⟨stop, 60000, 0, 0, false, none⟩
    let trip : Trip Rat := ⟨"line", "1", none, "block", "weekdays", false, 0, stops⟩
    let seen (vehicle : VehicleId) (stop : StopId) (index : Nat) (kind : StopEventKind)
        (time : Int) : StopEvent :=
      ⟨vehicle, "line", "1", none, "block", stop, index, time, kind, Date.ofDays 0, 0, false, none⟩
    let s := (Statistics.empty .standard).putAll [(60000, seen "tram" "harbour" 0 .departure 0),
      (60000, seen "tram" "market" 1 .arrival 60000)]
    let arrives := (90000, seen "coach" "market" 1 .arrival 90000)
    let leaves := (100000, seen "coach" "market" 1 .departure 100000)
    let travel (s : Statistics Rat) (now time : Int) :=
      s.lastVehicleTravel? now ⟨trip, 1⟩ ⟨"bus", Date.ofDays 0, time⟩
    s.WellKept ∧ s.Retains arrives.1 arrives.2 ∧ s.KeepsAll 120000 [arrives, leaves] ∧
      travel s 90000 95000 = some 60000 ∧
      travel (s.put arrives.1 arrives.2) 90000 95000 = some 90000 ∧
      travel (s.put arrives.1 arrives.2) 90000 65000 = some 60000 ∧
      travel (s.putAll [arrives, leaves]) 120000 65000 = some 60000 := by
  intro stops trip seen s arrives leaves travel
  have hkept : s.WellKept := (WellKept.empty _).putAll _
  have hretains : s.Retains arrives.1 arrives.2 := by decide +kernel
  have hkeeps : s.KeepsAll 120000 [arrives, leaves] := by decide +kernel
  have hlate : ∀ p ∈ [arrives, leaves], (65000 : Int) < p.2.time := by decide
  have hnow : travel s 90000 65000 = some 60000 := by decide +kernel
  have hthen : travel s 120000 65000 = some 60000 := by decide +kernel
  obtain ⟨hone, hmany⟩ := put_foresees_nothing hkept 65000
  refine ⟨hkept, hretains, hkeeps, by decide +kernel, by decide +kernel, ?_, ?_⟩
  · exact ((hone 90000 arrives.2 (by decide) hretains).lastVehicleTravel?_eq _ _ rfl).trans hnow
  · exact ((hmany 120000 _ hlate hkeeps).lastVehicleTravel?_eq _ _ rfl).trans hthen

end Statistics

end NextStop
