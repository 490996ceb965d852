import NextStop.Proofs.Statistics.Footprint
import NextStop.Schedule.Timetable

/-!
# Statistics from the standpoint of a trip

What is read for a trip reaches beyond its own keys: the last vehicle at one of its stops may have
been on another trip, and the run of that vehicle is looked up. But if every event in the logs of
stops is of a trip that serves the stop, `Statistics.Stems`, that is never a trip which shares no
stop with it. So statistics that differ at most in what another trip owns are the same for the
first one, `Statistics.SameFor`, and stay so through its changes, `Statistics.SameFor.changeAll`.
-/

namespace NextStop

namespace Statistics

variable {α : Type} {t u : Trip α} {now : Int} {s s' : Statistics α}

/-! ## Where the events at stops come from -/

/-- Every event in the log of a stop happened there, on a trip of the timetable that serves the
stop. -/
def Stems (tt : Timetable α) (s : Statistics α) : Prop :=
  ∀ (k : StopDayKey) (entry : ExpiringCache.Entry EventLog), s.stops.entries[k]? = some entry →
    ∀ ev ∈ entry.value.newestFirst,
      ev.stop = k.stop ∧ ∃ x, tt.trip? ev.trip = some x ∧ x.Serves ev.stop

/-- To trip `t`, which is apart from trip `u`, two statistics are the same: they
differ at most in what belongs to `u`. -/
structure SameFor (tt : Timetable α) (now : Int) (t u : Trip α) (s s' : Statistics α) : Prop where
  same : SameOff u now s s'
  apart : t.Apart u
  known : tt.trip? t.id = some t
  listed : tt.trip? u.id = some u
  stems : s.Stems tt
  kept : s.WellKept
  kept' : s'.WellKept

variable {tt : Timetable α}

theorem Stems.congr (h : s.Stems tt) (hs : s'.stops = s.stops) : s'.Stems tt := by
  rw [Stems, hs]
  exact h

theorem Stems.of_stopDay? (h : s.Stems tt) {k : StopDayKey} {log : EventLog}
    (hlog : s.stopDay? now k = some log) {ev : StopEvent} (hev : ev ∈ log.newestFirst) :
    ev.stop = k.stop ∧ ∃ x, tt.trip? ev.trip = some x ∧ x.Serves ev.stop := by
  rw [stopDay?, ExpiringCache.get?, Option.map_eq_some_iff] at hlog
  obtain ⟨entry, hentry, rfl⟩ := hlog
  exact h k entry (Option.filter_eq_some_iff.mp hentry).1 ev hev

namespace SameFor

variable (h : SameFor tt now t u s s')
include h

theorem settings_eq : s'.settings = s.settings := h.same.rules.settings

theorem pathKey_eq (quantity : Quantity) (trip : TripId) (index : Nat) (frequencyBased : Bool)
    (time : Int) :
    s'.pathKey quantity trip index frequencyBased time =
      s.pathKey quantity trip index frequencyBased time := by
  rw [pathKey, pathKey, timeBucket, timeBucket, h.settings_eq]

theorem get?_eq {x : Shelf} {k : x.Key} (hk : t.Owns x k) :
    (s'.shelf x).get? now k = (s.shelf x).get? now k :=
  h.same.get?_eq x k (h.apart.not_owns hk)

theorem stopDay?_eq {k : StopDayKey} (hk : t.Serves k.stop) :
    s'.stopDay? now k = s.stopDay? now k :=
  h.get?_eq (x := .stops) hk

theorem run?_eq {k : RunKey} (hk : k.trip ≠ u.id) : s'.run? now k = s.run? now k :=
  h.same.get?_eq .runs k hk

theorem mean?_eq (frequencyBased : Bool) {k : PathKey} (hk : k.trip = t.id) :
    s'.mean? now frequencyBased k = s.mean? now frequencyBased k := by
  rw [mean?, mean?]
  split
  · exact h.get?_eq (x := .frequencyMeans) hk
  · exact h.get?_eq (x := .scheduleMeans) hk

theorem departureAhead?_eq {a : Approach} (ha : t.Serves a.stop) (o : Observer) :
    s'.departureAhead? now a o = s.departureAhead? now a o := by
  rw [departureAhead?, departureAhead?, h.stopDay?_eq ha]

theorem observedHeadway?_eq {e : StopEvent} (he : t.Serves e.stop) :
    s'.observedHeadway? now e = s.observedHeadway? now e := by
  rw [observedHeadway?, observedHeadway?, h.departureAhead?_eq he]

variable {seg : Segment α} (hseg : t.Serves seg.stop)
include hseg

theorem lastVehicleEvent?_eq (o : Observer) (kind : StopEventKind) :
    s'.lastVehicleEvent? now seg o kind = s.lastVehicleEvent? now seg o kind := by
  rw [lastVehicleEvent?, lastVehicleEvent?, h.settings_eq, h.stopDay?_eq hseg]

/-- The last vehicle at a stop of `t` was not on trip `u`. -/
theorem trip_ne_of_lastVehicleEvent? {o : Observer} {kind : StopEventKind} {ev : StopEvent}
    (hev : s.lastVehicleEvent? now seg o kind = some ev) : ev.trip ≠ u.id := by
  obtain ⟨log, hlog, hfind⟩ := Option.bind_eq_some_iff.mp hev
  obtain ⟨hstop, x, hx, hserves⟩ := h.stems.of_stopDay? hlog (List.mem_of_find?_eq_some hfind)
  intro htrip
  rw [htrip, h.listed, Option.some.injEq] at hx
  subst hx
  rw [hstop] at hserves
  exact h.apart.stops _ hseg hserves

theorem lastVehicleTravel?_eq (o : Observer) :
    s'.lastVehicleTravel? now seg o = s.lastVehicleTravel? now seg o := by
  rw [lastVehicleTravel?, lastVehicleTravel?, h.lastVehicleEvent?_eq hseg, h.settings_eq,
    runKey_eq_of_settings h.settings_eq]
  cases hev : s.lastVehicleEvent? now seg o .arrival with
  | none => rfl
  | some arrival =>
    rw [Option.bind_some, Option.bind_some,
      h.run?_eq (h.trip_ne_of_lastVehicleEvent? hseg hev : (s.runKey arrival).trip ≠ u.id)]

theorem lastVehicleDwell?_eq (o : Observer) :
    s'.lastVehicleDwell? now seg o = s.lastVehicleDwell? now seg o := by
  rw [lastVehicleDwell?, lastVehicleDwell?, h.lastVehicleEvent?_eq hseg, h.settings_eq,
    runKey_eq_of_settings h.settings_eq]
  cases hev : s.lastVehicleEvent? now seg o .departure with
  | none => rfl
  | some departure =>
    rw [Option.bind_some, Option.bind_some,
      h.run?_eq (h.trip_ne_of_lastVehicleEvent? hseg hev : (s.runKey departure).trip ≠ u.id)]

end SameFor

/-! ## Estimates -/

namespace SameFor

variable (h : SameFor tt now t u s s')
include h

/-- The same write to a shelf other than that of the stops. -/
theorem write {w : Write α} (hw : w.shelf ≠ .stops) (hspares : SparesAll now s [w])
    (hspares' : SparesAll now s' [w]) :
    SameFor tt now t u (s.write now w) (s'.write now w) where
  same := h.same.write h.kept h.kept' hspares hspares'
  apart := h.apart
  known := h.known
  listed := h.listed
  stems := h.stems.congr (s.shelf_write_of_ne now hw)
  kept := h.kept.write now w
  kept' := h.kept'.write now w

variable {seg : Segment α} (htrip : seg.trip = t)
include htrip

theorem trustedMean?_eq (quantity : Quantity) (time : Int) :
    Estimate.trustedMean? s' now seg quantity time =
      Estimate.trustedMean? s now seg quantity time := by
  rw [Estimate.trustedMean?, Estimate.trustedMean?, segmentMean?, segmentMean?, h.pathKey_eq,
    h.settings_eq, h.mean?_eq _ (congrArg Trip.id htrip)]

theorem kalmanError?_eq : s'.kalmanError? now seg = s.kalmanError? now seg :=
  h.get?_eq (x := .kalmanErrors) (congrArg Trip.id htrip)

variable [Scalar α]

theorem predict?_eq (index : Nat) (time headway : Int) :
    s'.dwellModels.predict? now (s'.pathKey .dwell seg.trip.id index true time) headway =
      s.dwellModels.predict? now (s.pathKey .dwell seg.trip.id index true time) headway := by
  have hmodel := h.get?_eq (x := .dwellModels)
    (k := s.pathKey .dwell seg.trip.id index true time) (congrArg Trip.id htrip)
  rw [h.pathKey_eq, DwellModels.predict?, DwellModels.predict?, h.same.rules.minSamples]
  exact congrArg (Option.bind · _) hmodel

variable (hseg : t.Serves seg.stop)
include hseg

/-- The travel time on a segment is estimated alike, and the same errors of the filter are
kept. -/
theorem travel_eq (c : Situation) (methods : List Method)
    (hspares : SparesAll now s ((Estimate.errors now seg c methods s).map (errorWrite seg)))
    (hspares' : SparesAll now s' ((Estimate.errors now seg c methods s').map (errorWrite seg))) :
    (Estimate.travel now seg c methods s').1 = (Estimate.travel now seg c methods s).1 ∧
      Estimate.errors now seg c methods s' = Estimate.errors now seg c methods s := by
  induction methods generalizing s s' with
  | nil => exact ⟨rfl, rfl⟩
  | cons m rest ih =>
    cases m with
    | timetable => exact ⟨rfl, rfl⟩
    | lastVehicle =>
      rw [Estimate.errors] at hspares hspares'
      rw [Estimate.travel, Estimate.travel, Estimate.errors, Estimate.errors]
      rw [h.lastVehicleTravel?_eq hseg] at hspares' ⊢
      cases hlast : s.lastVehicleTravel? now seg c.observer with
      | none =>
        rw [hlast] at hspares hspares'
        exact ih h hspares hspares'
      | some value => exact ⟨rfl, rfl⟩
    | historicalAverage =>
      rw [Estimate.errors] at hspares hspares'
      rw [Estimate.travel, Estimate.travel, Estimate.errors, Estimate.errors]
      rw [h.trustedMean?_eq htrip] at hspares' ⊢
      cases hmean : Estimate.trustedMean? s now seg .travel c.observer.time with
      | none =>
        rw [hmean] at hspares hspares'
        exact ih h hspares hspares'
      | some mean => exact ⟨rfl, rfl⟩
    | kalman =>
      rw [Estimate.errors] at hspares hspares'
      rw [Estimate.travel, Estimate.travel, Estimate.errors, Estimate.errors]
      rw [h.kalmanError?_eq htrip] at hspares' ⊢
      cases herror : s.kalmanError? now seg with
      | none =>
        rw [herror] at hspares hspares'
        dsimp only at hspares hspares' ⊢
        rw [h.settings_eq] at hspares' ⊢
        have hkept := h.write (w := errorWrite seg _) (by simp [errorWrite])
          ⟨hspares.1, trivial⟩ ⟨hspares'.1, trivial⟩
        obtain ⟨hestimate, herrors⟩ := ih hkept hspares.2 hspares'.2
        exact ⟨hestimate, congrArg _ herrors⟩
      | some error =>
        rw [herror] at hspares hspares'
        dsimp only at hspares hspares' ⊢
        rw [h.trustedMean?_eq htrip, h.lastVehicleTravel?_eq hseg, h.settings_eq] at hspares' ⊢
        cases hmean : Estimate.trustedMean? s now seg .travel c.observer.time with
        | none =>
          rw [hmean] at hspares hspares'
          exact ih h hspares hspares'
        | some prior =>
          cases hlast : s.lastVehicleTravel? now seg c.observer with
          | none =>
            rw [hmean, hlast] at hspares hspares'
            exact ih h hspares hspares'
          | some measurement => exact ⟨rfl, rfl⟩
    | rls => exact ih h hspares hspares'

/-- The dwell time at the stop of a segment is estimated alike. -/
theorem dwell_eq (c : Situation) (methods : List Method) :
    Estimate.dwell now seg c s' methods = Estimate.dwell now seg c s methods := by
  induction methods with
  | nil => rfl
  | cons m rest ih =>
    cases m with
    | timetable => rfl
    | lastVehicle => rw [Estimate.dwell, Estimate.dwell, h.lastVehicleDwell?_eq hseg, ih]
    | historicalAverage => rw [Estimate.dwell, Estimate.dwell, h.trustedMean?_eq htrip, ih]
    | kalman => exact ih
    | rls =>
      have hpredict : s'.dwellModels.predict? now
          (s'.pathKey .dwell seg.trip.id seg.index true c.observer.time) =
          s.dwellModels.predict? now
            (s.pathKey .dwell seg.trip.id seg.index true c.observer.time) :=
        funext fun headway => h.predict?_eq htrip seg.index c.observer.time headway
      rw [Estimate.dwell, Estimate.dwell, ih, hpredict]

end SameFor

/-! ## Changes -/

variable [Scalar α]

/-- A change for a trip that the timetable has logs events at its stops only. -/
theorem Stems.change {c : Change α} (h : s.Stems tt) (ht : tt.trip? t.id = some t)
    (hc : c.On t) (now : Int) : (s.change now c).Stems tt := by
  cases c with
  | travel seg c methods => exact h.congr (Estimate.travel_same now seg c methods s).stops
  | estimate p => exact h
  | event ev =>
    intro k entry hentry d hd
    have hstops : (s.change now (.event ev)).stops = s.stops.update now (stopDayKey ev)
        fun log => (log.getD .empty).push ev := (s.put_same now ev).stops
    rw [hstops] at hentry
    rcases ExpiringCache.getElem?_of_put hentry with ⟨rfl, hvalue⟩ | ⟨-, hold⟩
    · rw [congrArg ExpiringCache.Entry.value hvalue] at hd
      rcases EventLog.mem_insert.mp hd with rfl | hd
      · exact ⟨rfl, t, hc.1 ▸ ht, hc.2⟩
      · cases hlog : s.stops.get? now (stopDayKey ev) with
        | none =>
          rw [hlog] at hd
          contradiction
        | some log =>
          rw [hlog] at hd
          exact h.of_stopDay? hlog hd
    · exact h k entry (Table.getElem?_erase_eq_some_iff.mp hold).2 d hd

namespace SameFor

variable (h : SameFor tt now t u s s')
include h

/-- An event of the trip is fed in by the same writes. -/
theorem putWrites_eq {ev : StopEvent} (htrip : ev.trip = t.id) (hstop : t.Serves ev.stop) :
    s'.putWrites now ev = s.putWrites now ev := by
  have hrunKey : s'.runKey ev = s.runKey ev :=
    congrFun (runKey_eq_of_settings h.settings_eq) ev
  have hrun : s'.runWith now ev = s.runWith now ev := by
    have hne : (s.runKey ev).trip ≠ u.id := htrip.trans_ne h.apart.id_ne
    rw [runWith, runWith, hrunKey, h.run?_eq hne]
  have hkey : ∀ quantity, s'.eventPathKey quantity ev = s.eventPathKey quantity ev :=
    fun quantity => h.pathKey_eq quantity _ _ _ _
  have hsample : ∀ k headway dwell,
      s'.sampleWrite k headway dwell = s.sampleWrite k headway dwell :=
    fun k headway dwell => by rw [sampleWrite, sampleWrite, h.same.rules.forgetting]
  rw [putWrites, putWrites, hrun, hrunKey, h.observedHeadway?_eq hstop]
  simp only [travelWrites, dwellWrites, h.settings_eq, hkey, hsample]

theorem writes_eq {c : Change α} (hc : c.On t) (hspares : SparesAll now s (c.writes s now))
    (hspares' : SparesAll now s' (c.writes s' now)) : c.writes s' now = c.writes s now := by
  cases c with
  | travel seg c methods =>
    exact congrArg (List.map _) (h.travel_eq hc.1 hc.2 c methods hspares hspares').2
  | estimate p => rfl
  | event ev => exact h.putWrites_eq hc.1 hc.2

/-- A change for the trip keeps statistics the same for it. -/
theorem change {c : Change α} (hc : c.On t) (hspares : SparesAll now s (c.writes s now))
    (hspares' : SparesAll now s' (c.writes s' now)) :
    SameFor tt now t u (s.change now c) (s'.change now c) where
  same := by
    rw [change_eq_writeAll, change_eq_writeAll, h.writes_eq hc hspares hspares']
    rw [h.writes_eq hc hspares hspares'] at hspares'
    exact h.same.writeAll h.kept h.kept' hspares hspares'
  apart := h.apart
  known := h.known
  listed := h.listed
  stems := h.stems.change h.known hc now
  kept := by
    rw [change_eq_writeAll]
    exact h.kept.writeAll now _
  kept' := by
    rw [change_eq_writeAll]
    exact h.kept'.writeAll now _

/-- Changes for the trip are the same writes, and keep statistics the same for it. -/
theorem changeAll {changes : List (Change α)} (hon : ∀ c ∈ changes, c.On t)
    (hspares : SparesAll now s (writesOf now s changes))
    (hspares' : SparesAll now s' (writesOf now s' changes)) :
    writesOf now s' changes = writesOf now s changes ∧
      SameFor tt now t u (s.changeAll now changes) (s'.changeAll now changes) := by
  induction changes generalizing s s' with
  | nil => exact ⟨rfl, h⟩
  | cons c rest ih =>
    rw [writesOf, SparesAll.append, ← change_eq_writeAll] at hspares hspares'
    have hc := hon c List.mem_cons_self
    have hwrites := h.writes_eq hc hspares.1 hspares'.1
    obtain ⟨hrest, hsame⟩ := ih (h.change hc hspares.1 hspares'.1)
      (fun d hd => hon d (List.mem_cons_of_mem _ hd)) hspares.2 hspares'.2
    refine ⟨?_, hsame⟩
    rw [writesOf, writesOf, hwrites, hrest]

end SameFor

/-! ## Changes for two trips -/

/-- Changes for trips that the timetable has log events at their stops only. -/
theorem Stems.changeAll {changes : List (Change α)} (h : s.Stems tt) (ht : tt.trip? t.id = some t)
    (hon : ∀ c ∈ changes, c.On t) (now : Int) : (s.changeAll now changes).Stems tt := by
  induction changes generalizing s with
  | nil => exact h
  | cons c rest ih =>
    exact ih (h.change ht (hon c List.mem_cons_self) now)
      fun d hd => hon d (List.mem_cons_of_mem _ hd)

theorem WellKept.changeAll (h : s.WellKept) (now : Int) (changes : List (Change α)) :
    (s.changeAll now changes).WellKept := by
  rw [changeAll_eq_writeAll]
  exact h.writeAll now _

/-- Changes for another trip keep statistics the same for a trip. -/
theorem SameFor.of_changeAll {changes : List (Change α)} (hkept : s.WellKept)
    (hstems : s.Stems tt) (hapart : t.Apart u) (ht : tt.trip? t.id = some t)
    (hu : tt.trip? u.id = some u) (hon : ∀ c ∈ changes, c.On u)
    (hspares : SparesAll now s (writesOf now s changes)) :
    SameFor tt now t u s (s.changeAll now changes) where
  same := by
    rw [changeAll_eq_writeAll]
    exact hkept.sameOff (writesOf_of_on hon s now) hspares
  apart := hapart
  known := ht
  listed := hu
  stems := hstems
  kept := hkept
  kept' := hkept.changeAll now changes

/-- Changes for trips that are apart can change places. -/
theorem changeAll_swap {changes more : List (Change α)} (hkept : s.WellKept)
    (hstems : s.Stems tt) (hapart : t.Apart u) (ht : tt.trip? t.id = some t)
    (hu : tt.trip? u.id = some u) (hon : ∀ c ∈ changes, c.On t) (hmore : ∀ c ∈ more, c.On u)
    (h₁ : SparesAll now s (writesOf now s changes))
    (h₁' : SparesAll now (s.changeAll now changes) (writesOf now (s.changeAll now changes) more))
    (h₂ : SparesAll now s (writesOf now s more))
    (h₂' : SparesAll now (s.changeAll now more) (writesOf now (s.changeAll now more) changes)) :
    Alike ((s.changeAll now changes).changeAll now more)
      ((s.changeAll now more).changeAll now changes) := by
  -- each run of changes makes the same writes, whether it comes first or second
  have hchanges := ((SameFor.of_changeAll hkept hstems hapart ht hu hmore h₂).changeAll hon h₁
    h₂').1
  have hmores := ((SameFor.of_changeAll hkept hstems hapart.symm hu ht hon h₁).changeAll hmore h₂
    h₁').1
  rw [changeAll_eq_writeAll _ now more, changeAll_eq_writeAll (s.changeAll now more) now changes]
  rw [hchanges] at h₂' ⊢
  rw [hmores] at h₁' ⊢
  rw [changeAll_eq_writeAll] at h₁' h₂' ⊢
  rw [changeAll_eq_writeAll s]
  exact writeAll_swap hkept hapart (writesOf_of_on hon s now) (writesOf_of_on hmore s now) h₁ h₁'
    h₂ h₂'

end Statistics

end NextStop
