import NextStop.Proofs.Statistics.Changes
import NextStop.Proofs.Statistics.Rewriting

/-!
# The shelves of the statistics

The statistics are seven caches. `Shelf` names them, so that what holds of every cache is said
once, and a `Statistics.Write` is one change to one of them. Every change of the statistics is a
list of writes, `Statistics.change_eq_writeAll`. Here is what writes that push nothing out leave:
`Statistics.rewritten_writeAll`.
-/

namespace NextStop

/-- The caches among the statistics. -/
inductive Shelf where
  | scheduleMeans
  | frequencyMeans
  | kalmanErrors
  | runs
  | stops
  | pathEstimates
  | dwellModels
  deriving DecidableEq

namespace Shelf

/-- The keys of a shelf. -/
def Key : Shelf → Type
  | scheduleMeans => PathKey
  | frequencyMeans => PathKey
  | kalmanErrors => SegmentKey
  | runs => RunKey
  | stops => StopDayKey
  | pathEstimates => PathKey
  | dwellModels => PathKey

/-- What a shelf keeps under a key. -/
def Value (α : Type) : Shelf → Type
  | scheduleMeans => RunningMean α
  | frequencyMeans => RunningMean α
  | kalmanErrors => α
  | runs => EventLog
  | stops => EventLog
  | pathEstimates => PathEstimate
  | dwellModels => DwellModel α

instance : (x : Shelf) → Ord x.Key
  | scheduleMeans => inferInstanceAs (Ord PathKey)
  | frequencyMeans => inferInstanceAs (Ord PathKey)
  | kalmanErrors => inferInstanceAs (Ord SegmentKey)
  | runs => inferInstanceAs (Ord RunKey)
  | stops => inferInstanceAs (Ord StopDayKey)
  | pathEstimates => inferInstanceAs (Ord PathKey)
  | dwellModels => inferInstanceAs (Ord PathKey)

instance : (x : Shelf) → Std.TransOrd x.Key
  | scheduleMeans => inferInstanceAs (Std.TransOrd PathKey)
  | frequencyMeans => inferInstanceAs (Std.TransOrd PathKey)
  | kalmanErrors => inferInstanceAs (Std.TransOrd SegmentKey)
  | runs => inferInstanceAs (Std.TransOrd RunKey)
  | stops => inferInstanceAs (Std.TransOrd StopDayKey)
  | pathEstimates => inferInstanceAs (Std.TransOrd PathKey)
  | dwellModels => inferInstanceAs (Std.TransOrd PathKey)

instance : (x : Shelf) → Std.LawfulEqOrd x.Key
  | scheduleMeans => inferInstanceAs (Std.LawfulEqOrd PathKey)
  | frequencyMeans => inferInstanceAs (Std.LawfulEqOrd PathKey)
  | kalmanErrors => inferInstanceAs (Std.LawfulEqOrd SegmentKey)
  | runs => inferInstanceAs (Std.LawfulEqOrd RunKey)
  | stops => inferInstanceAs (Std.LawfulEqOrd StopDayKey)
  | pathEstimates => inferInstanceAs (Std.LawfulEqOrd PathKey)
  | dwellModels => inferInstanceAs (Std.LawfulEqOrd PathKey)

end Shelf

namespace Statistics

variable {α : Type}

/-- The cache on a shelf. -/
def shelf (s : Statistics α) : (x : Shelf) → ExpiringCache x.Key (x.Value α)
  | .scheduleMeans => s.scheduleMeans
  | .frequencyMeans => s.frequencyMeans
  | .kalmanErrors => s.kalmanErrors
  | .runs => s.runs
  | .stops => s.stops
  | .pathEstimates => s.pathEstimates
  | .dwellModels => s.dwellModels.cache

/-- The statistics with another cache on a shelf. -/
def setShelf (s : Statistics α) : (x : Shelf) → ExpiringCache x.Key (x.Value α) → Statistics α
  | .scheduleMeans, c => { s with scheduleMeans := c }
  | .frequencyMeans, c => { s with frequencyMeans := c }
  | .kalmanErrors, c => { s with kalmanErrors := c }
  | .runs, c => { s with runs := c }
  | .stops, c => { s with stops := c }
  | .pathEstimates, c => { s with pathEstimates := c }
  | .dwellModels, c => { s with dwellModels := { s.dwellModels with cache := c } }

@[simp] theorem shelf_setShelf_self (s : Statistics α) (x : Shelf)
    (c : ExpiringCache x.Key (x.Value α)) : (s.setShelf x c).shelf x = c := by
  cases x <;> rfl

theorem shelf_setShelf_of_ne (s : Statistics α) {x y : Shelf} (h : x ≠ y)
    (c : ExpiringCache x.Key (x.Value α)) : (s.setShelf x c).shelf y = s.shelf y := by
  cases x <;> cases y <;> first | rfl | exact absurd rfl h

/-- A write to one of the shelves. -/
structure Write (α : Type) where
  shelf : Shelf
  change : ExpiringCache.Change shelf.Key (shelf.Value α)

/-- The statistics after a write. -/
def write (s : Statistics α) (now : Int) (w : Write α) : Statistics α :=
  s.setShelf w.shelf ((s.shelf w.shelf).perform (now, w.change))

/-- The statistics after a run of writes. -/
def writeAll (s : Statistics α) (now : Int) (ws : List (Write α)) : Statistics α :=
  ws.foldl (fun s w => s.write now w) s

/-- No write of a run pushes anything out. -/
def SparesAll (now : Int) : Statistics α → List (Write α) → Prop
  | _, [] => True
  | s, w :: ws =>
    (s.shelf w.shelf).Spares ((s.shelf w.shelf).perform (now, w.change)) now ∧
      SparesAll now (s.write now w) ws

instance decidableSparesAll (now : Int) :
    (s : Statistics α) → (ws : List (Write α)) → Decidable (SparesAll now s ws)
  | _, [] => .isTrue trivial
  | s, w :: ws =>
    have := decidableSparesAll now (s.write now w) ws
    inferInstanceAs (Decidable (_ ∧ _))

/-! ## What writes leave -/

/-- Statistics that go by the same rules. -/
structure SameRules (s s' : Statistics α) : Prop where
  settings : s'.settings = s.settings
  forgetting : s'.dwellModels.forgetting = s.dwellModels.forgetting
  minSamples : s'.dwellModels.minSamples = s.dwellModels.minSamples

/-- All caches are well kept. -/
def WellKept (s : Statistics α) : Prop := ∀ x, (s.shelf x).WellKept

/-- A run of writes writes a key on a shelf. -/
def Touches (ws : List (Write α)) (x : Shelf) (k : x.Key) : Prop :=
  ∃ change, (⟨x, change⟩ : Write α) ∈ ws ∧ change.key = k

theorem touches_cons_self {x : Shelf} (change : ExpiringCache.Change x.Key (x.Value α))
    (ws : List (Write α)) :
    Touches (⟨x, change⟩ :: ws) x = fun k => k = change.key ∨ Touches ws x k := by
  funext k
  apply propext
  constructor
  · rintro ⟨other, hmem, rfl⟩
    rcases List.mem_cons.mp hmem with heq | hmem
    · obtain rfl := eq_of_heq (Write.mk.inj heq).2
      exact Or.inl rfl
    · exact Or.inr ⟨other, hmem, rfl⟩
  · rintro (rfl | ⟨other, hmem, rfl⟩)
    · exact ⟨change, List.mem_cons_self, rfl⟩
    · exact ⟨other, List.mem_cons_of_mem _ hmem, rfl⟩

theorem touches_cons_of_ne {w : Write α} {x : Shelf} (h : w.shelf ≠ x) (ws : List (Write α)) :
    Touches (w :: ws) x = Touches ws x := by
  funext k
  apply propext
  constructor
  · rintro ⟨change, hmem, rfl⟩
    rcases List.mem_cons.mp hmem with rfl | hmem
    · exact absurd rfl h
    · exact ⟨change, hmem, rfl⟩
  · rintro ⟨change, hmem, rfl⟩
    exact ⟨change, List.mem_cons_of_mem _ hmem, rfl⟩

theorem touches_append (ws vs : List (Write α)) (x : Shelf) (k : x.Key) :
    Touches (ws ++ vs) x k ↔ Touches ws x k ∨ Touches vs x k := by
  simp only [Touches, List.mem_append, or_and_right, exists_or]

theorem SameRules.refl (s : Statistics α) : s.SameRules s := ⟨rfl, rfl, rfl⟩

theorem SameRules.symm {s s' : Statistics α} (h : s.SameRules s') : s'.SameRules s :=
  ⟨h.settings.symm, h.forgetting.symm, h.minSamples.symm⟩

theorem SameRules.trans {s s' s'' : Statistics α} (h : s.SameRules s') (h' : s'.SameRules s'') :
    s.SameRules s'' :=
  ⟨h'.settings.trans h.settings, h'.forgetting.trans h.forgetting,
    h'.minSamples.trans h.minSamples⟩

theorem write_rules (s : Statistics α) (now : Int) (w : Write α) :
    s.SameRules (s.write now w) := by
  obtain ⟨x, change⟩ := w
  cases x <;> exact ⟨rfl, rfl, rfl⟩

theorem writeAll_rules (s : Statistics α) (now : Int) (ws : List (Write α)) :
    s.SameRules (s.writeAll now ws) := by
  induction ws generalizing s with
  | nil => exact .refl s
  | cons w rest ih => exact (s.write_rules now w).trans (ih (s.write now w))

theorem shelf_write_self (s : Statistics α) (now : Int) (x : Shelf)
    (change : ExpiringCache.Change x.Key (x.Value α)) :
    (s.write now ⟨x, change⟩).shelf x = (s.shelf x).perform (now, change) :=
  s.shelf_setShelf_self x _

theorem shelf_write_of_ne (s : Statistics α) (now : Int) {w : Write α} {x : Shelf}
    (h : w.shelf ≠ x) : (s.write now w).shelf x = s.shelf x :=
  s.shelf_setShelf_of_ne h _

/-- Writes to other shelves leave a shelf alone. -/
theorem shelf_writeAll_of_ne (s : Statistics α) (now : Int) {ws : List (Write α)} {x : Shelf}
    (h : ∀ w ∈ ws, w.shelf ≠ x) : (s.writeAll now ws).shelf x = s.shelf x := by
  induction ws generalizing s with
  | nil => rfl
  | cons w rest ih =>
    have hrest := ih (s.write now w) fun v hv => h v (List.mem_cons_of_mem w hv)
    exact hrest.trans (s.shelf_write_of_ne now (h w List.mem_cons_self))

/-- What every change to a cache keeps is kept on all shelves by a write. -/
theorem forall_shelf_write {P : (x : Shelf) → ExpiringCache x.Key (x.Value α) → Prop}
    (hP : ∀ x c change, P x c → P x (c.perform change)) {s : Statistics α}
    (h : ∀ x, P x (s.shelf x)) (now : Int) (w : Write α) (x : Shelf) :
    P x ((s.write now w).shelf x) := by
  by_cases hx : w.shelf = x
  · subst hx
    rw [Statistics.write, shelf_setShelf_self]
    exact hP _ _ _ (h _)
  · rw [shelf_write_of_ne s now hx]
    exact h x

theorem forall_shelf_writeAll {P : (x : Shelf) → ExpiringCache x.Key (x.Value α) → Prop}
    (hP : ∀ x c change, P x c → P x (c.perform change)) {s : Statistics α}
    (h : ∀ x, P x (s.shelf x)) (now : Int) (ws : List (Write α)) (x : Shelf) :
    P x ((s.writeAll now ws).shelf x) := by
  induction ws generalizing s with
  | nil => exact h x
  | cons w rest ih => exact ih (forall_shelf_write hP h now w)

theorem WellKept.write {s : Statistics α} (h : s.WellKept) (now : Int) (w : Write α) :
    (s.write now w).WellKept :=
  forall_shelf_write (fun _ _ change hc => hc.perform change.2) h now w

theorem WellKept.writeAll {s : Statistics α} (h : s.WellKept) (now : Int)
    (ws : List (Write α)) : (s.writeAll now ws).WellKept :=
  forall_shelf_writeAll (fun _ _ change hc => hc.perform change.2) h now ws

theorem SparesAll.append {s : Statistics α} {now : Int} {ws vs : List (Write α)} :
    SparesAll now s (ws ++ vs) ↔ SparesAll now s ws ∧ SparesAll now (s.writeAll now ws) vs := by
  induction ws generalizing s with
  | nil => exact (iff_of_eq (true_and _)).symm
  | cons w rest ih => exact (and_congr_right fun _ => ih).trans and_assoc.symm

/-- Writes that push nothing out rewrite the keys that they write. -/
theorem WellKept.rewritten_writeAll {s : Statistics α} (h : s.WellKept) {now : Int}
    {ws : List (Write α)} (hspares : SparesAll now s ws) (x : Shelf) :
    (s.shelf x).Rewritten now (Touches ws x) ((s.writeAll now ws).shelf x) := by
  induction ws generalizing s with
  | nil => exact .refl _ now fun k ⟨_, hmem, _⟩ => List.not_mem_nil hmem
  | cons w rest ih =>
    obtain ⟨hfirst, hrest⟩ := hspares
    have htail := ih (h.write now w) hrest
    obtain ⟨y, change⟩ := w
    by_cases hx : y = x
    · subst hx
      rw [shelf_write_self] at htail
      have hwritten := ((h y).rewritten_perform hfirst).trans (h y) htail
      rw [touches_cons_self]
      exact hwritten
    · have hsame : (s.write now ⟨y, change⟩).shelf x = s.shelf x := s.shelf_write_of_ne now hx
      rw [touches_cons_of_ne hx, ← hsame]
      exact htail

/-! ## Changes as writes -/

variable [Scalar α]

omit [Scalar α] in
/-- An entry counts at least at the reading of its write. -/
theorem cacheLifetime_nonneg (settings : Settings α) : 0 ≤ settings.cacheLifetime := by
  unfold Settings.cacheLifetime Span.ofDays
  omega

/-- Statistics that have learned nothing are well kept. -/
theorem WellKept.empty (settings : Settings α) : (Statistics.empty settings).WellKept := by
  intro x
  cases x <;> exact .empty _ (cacheLifetime_nonneg settings)

/-- The write that keeps an error of the filter. -/
def errorWrite (seg : Segment α) (error : α) : Write α :=
  let kept : α := Scalar.positivePart error
  ⟨.kalmanErrors, .put ⟨seg.trip.id, seg.index⟩ kept⟩

/-- The write that keeps an estimate for a stop path. -/
def estimateWrite (p : PathEstimate) : Write α :=
  ⟨.pathEstimates, .put (.plain p.quantity p.trip p.index) p⟩

/-- The write that adds a duration to the mean under a key. -/
def meanWrite (frequencyBased : Bool) (k : PathKey) (duration : Int) : Write α :=
  let add (m : Option (RunningMean α)) : RunningMean α := (m.getD .empty).add (duration : α)
  if frequencyBased then ⟨.frequencyMeans, .update k add⟩ else ⟨.scheduleMeans, .update k add⟩

/-- The write that adds a sample to the dwell model under a key. -/
def sampleWrite (s : Statistics α) (k : PathKey) (headway dwell : Int) : Write α :=
  ⟨.dwellModels, .update k fun m =>
    (m.getD .initial).add (DwellModels.seconds headway) (DwellModels.seconds dwell)
      s.dwellModels.forgetting⟩

/-- The write that adds an event to the log of its stop and day. -/
def stopWrite (e : StopEvent) : Write α :=
  ⟨.stops, .update (stopDayKey e) fun log => (log.getD .empty).push e⟩

/-- The writes that add the travel time that ends with an arrival. -/
def travelWrites (s : Statistics α) (log : EventLog) (arrival : StopEvent) : List (Write α) :=
  match log.previousDeparture? arrival with
  | none => []
  | some departure =>
    let travel := arrival.time - departure.time
    if s.settings.travelPlausible travel then
      [meanWrite arrival.frequencyBased (s.eventPathKey .travel arrival) travel]
    else []

/-- The writes that add the dwell time that ends with a departure. -/
def dwellWrites (s : Statistics α) (log : EventLog) (departure : StopEvent)
    (headway : Option Int) : List (Write α) :=
  match log.matchingArrival? departure with
  | none => []
  | some arrival =>
    let dwell := departure.time - arrival.time
    if s.settings.dwellPlausible dwell then
      let k := s.eventPathKey .dwell departure
      meanWrite departure.frequencyBased k dwell ::
        headway.toList.map fun gap => s.sampleWrite k gap dwell
    else []

/-- The writes that feed in an event. -/
def putWrites (s : Statistics α) (now : Int) (e : StopEvent) : List (Write α) :=
  let log := s.runWith now e
  let durations := match e.kind with
    | .arrival => s.travelWrites log e
    | .departure => s.dwellWrites log e (s.observedHeadway? now e)
  ⟨.runs, .put (s.runKey e) log⟩ :: (durations ++ [stopWrite e])

end Statistics

/-- The errors of the filter that the estimate of a travel time keeps. -/
def Estimate.errors {α : Type} [Scalar α] (now : Int) (seg : Segment α) (c : Situation) :
    List Method → Statistics α → List α
  | [], _ => []
  | .timetable :: _, _ => []
  | .lastVehicle :: rest, s =>
    if (s.lastVehicleTravel? now seg c.observer).isSome then [] else errors now seg c rest s
  | .historicalAverage :: rest, s =>
    if (trustedMean? s now seg .travel c.observer.time).isSome then []
    else errors now seg c rest s
  | .kalman :: rest, s =>
    match s.kalmanError? now seg with
    | none =>
      let initial := s.settings.kalmanInitialError * Scalar.ofNat 1000
      initial :: errors now seg c rest (s.putKalmanError now seg initial)
    | some error =>
      match trustedMean? s now seg .travel c.observer.time,
          s.lastVehicleTravel? now seg c.observer with
      | some prior, some measurement =>
        [(kalmanUpdate prior error (measurement : α)
          (s.settings.kalmanNoise * Scalar.ofNat 1000)).error]
      | _, _ => errors now seg c rest s
  | .rls :: rest, s => errors now seg c rest s

namespace Statistics

variable {α : Type} [Scalar α]

/-- The writes of a change. -/
def Change.writes (s : Statistics α) (now : Int) : Change α → List (Write α)
  | .travel seg c methods => (Estimate.errors now seg c methods s).map (errorWrite seg)
  | .estimate p => [estimateWrite p]
  | .event ev => s.putWrites now ev

/-- The writes of a run of changes. -/
def writesOf (now : Int) : Statistics α → List (Change α) → List (Write α)
  | _, [] => []
  | s, c :: rest => c.writes s now ++ writesOf now (s.change now c) rest

omit [Scalar α] in
theorem writeAll_append (s : Statistics α) (now : Int) (ws vs : List (Write α)) :
    s.writeAll now (ws ++ vs) = (s.writeAll now ws).writeAll now vs :=
  List.foldl_append

theorem travel_eq_writeAll (s : Statistics α) (now : Int) (seg : Segment α) (c : Situation)
    (methods : List Method) :
    (Estimate.travel now seg c methods s).2 =
      s.writeAll now ((Estimate.errors now seg c methods s).map (errorWrite seg)) := by
  induction methods generalizing s with
  | nil => rfl
  | cons m rest ih =>
    cases m with
    | timetable => rfl
    | lastVehicle =>
      rw [Estimate.travel, Estimate.errors]
      cases s.lastVehicleTravel? now seg c.observer with
      | none => exact ih s
      | some value => rfl
    | historicalAverage =>
      rw [Estimate.travel, Estimate.errors]
      cases Estimate.trustedMean? s now seg .travel c.observer.time with
      | none => exact ih s
      | some mean => rfl
    | kalman =>
      rw [Estimate.travel, Estimate.errors]
      cases s.kalmanError? now seg with
      | none => exact ih _
      | some error =>
        cases Estimate.trustedMean? s now seg .travel c.observer.time with
        | none => exact ih s
        | some prior =>
          cases s.lastVehicleTravel? now seg c.observer with
          | none => exact ih s
          | some measurement => rfl
    | rls => exact ih s

theorem addToMean_eq_write (s : Statistics α) (now : Int) (frequencyBased : Bool) (k : PathKey)
    (duration : Int) :
    s.addToMean now frequencyBased k duration =
      s.write now (meanWrite frequencyBased k duration) := by
  cases frequencyBased <;> rfl

theorem recordTravel_eq_writeAll (s : Statistics α) (now : Int) (log : EventLog)
    (arrival : StopEvent) :
    s.recordTravel now log arrival = s.writeAll now (s.travelWrites log arrival) := by
  rw [recordTravel, travelWrites]
  cases log.previousDeparture? arrival with
  | none => rfl
  | some departure =>
    dsimp only
    split
    · exact s.addToMean_eq_write now _ _ _
    · rfl

theorem recordDwell_eq_writeAll (s : Statistics α) (now : Int) (log : EventLog)
    (departure : StopEvent) (headway : Option Int) :
    s.recordDwell now log departure headway =
      s.writeAll now (s.dwellWrites log departure headway) := by
  rw [recordDwell, dwellWrites]
  cases log.matchingArrival? departure with
  | none => rfl
  | some arrival =>
    dsimp only
    split
    · cases headway with
      | none => exact s.addToMean_eq_write now _ _ _
      | some gap => cases departure.frequencyBased <;> rfl
    · rfl

theorem put_eq_writeAll (s : Statistics α) (now : Int) (e : StopEvent) :
    s.put now e = s.writeAll now (s.putWrites now e) := by
  -- the run comes first and the stop last, with the durations in between
  have hput : ∀ ws : List (Write α), ((s.pushRun now e).writeAll now ws).pushStop now e =
      s.writeAll now (⟨.runs, .put (s.runKey e) (s.runWith now e)⟩ :: (ws ++ [stopWrite e])) := by
    intro ws
    rw [writeAll, writeAll, List.foldl_cons, List.foldl_append]
    rfl
  rw [put, putWrites]
  cases e.kind with
  | arrival =>
    dsimp only
    rw [recordTravel_eq_writeAll, hput]
    rfl
  | departure =>
    dsimp only
    rw [recordDwell_eq_writeAll, hput]
    rfl

theorem WellKept.put {s : Statistics α} (h : s.WellKept) (now : Int) (e : StopEvent) :
    (s.put now e).WellKept := by
  rw [put_eq_writeAll]
  exact h.writeAll now _

/-- A change is a run of writes. -/
theorem change_eq_writeAll (s : Statistics α) (now : Int) (c : Change α) :
    s.change now c = s.writeAll now (c.writes s now) := by
  cases c with
  | travel seg c methods => exact s.travel_eq_writeAll now seg c methods
  | estimate p => rfl
  | event ev => exact s.put_eq_writeAll now ev

theorem writesOf_append (now : Int) (s : Statistics α) (changes more : List (Change α)) :
    writesOf now s (changes ++ more) =
      writesOf now s changes ++ writesOf now (s.changeAll now changes) more := by
  induction changes generalizing s with
  | nil => rfl
  | cons c rest ih =>
    rw [List.cons_append, writesOf, writesOf, ih, List.append_assoc]
    rfl

theorem changeAll_eq_writeAll (s : Statistics α) (now : Int) (changes : List (Change α)) :
    s.changeAll now changes = s.writeAll now (writesOf now s changes) := by
  induction changes generalizing s with
  | nil => rfl
  | cons c rest ih =>
    rw [writesOf, writeAll_append, ← change_eq_writeAll]
    exact ih (s.change now c)

end Statistics

end NextStop
