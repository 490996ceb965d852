import NextStop.Proofs.Statistics.Shelves

/-!
# What the statistics keep of a trip

Every key of the statistics belongs to a trip, by its name or by its stop, `Trip.Owns`. A change
for a trip writes keys of the trip only, `Statistics.Change.On.writesOf`. Two trips that share
neither name nor stop own no key together, so that their writes can change places,
`Statistics.writeAll_swap`.
-/

namespace NextStop

namespace Trip

variable {α : Type}

/-- Whether a trip has a stop. -/
def Serves (t : Trip α) (stop : StopId) : Prop := ∃ p ∈ t.stopPaths, p.stop = stop

/-- Whether a key on a shelf belongs to a trip. -/
def Owns (t : Trip α) : (x : Shelf) → x.Key → Prop
  | .scheduleMeans, k => PathKey.trip k = t.id
  | .frequencyMeans, k => PathKey.trip k = t.id
  | .kalmanErrors, k => SegmentKey.trip k = t.id
  | .runs, k => RunKey.trip k = t.id
  | .stops, k => t.Serves (StopDayKey.stop k)
  | .pathEstimates, k => PathKey.trip k = t.id
  | .dwellModels, k => PathKey.trip k = t.id

/-- Trips that share neither their name nor a stop. -/
structure Apart (t u : Trip α) : Prop where
  id_ne : t.id ≠ u.id
  stops : ∀ stop, t.Serves stop → ¬u.Serves stop

theorem Apart.symm {t u : Trip α} (h : t.Apart u) : u.Apart t :=
  ⟨h.id_ne.symm, fun stop hu ht => h.stops stop ht hu⟩

/-- No key belongs to both of two trips that are apart. -/
theorem Apart.not_owns {t u : Trip α} (h : t.Apart u) {x : Shelf} {k : x.Key} (hk : t.Owns x k) :
    ¬u.Owns x k := by
  cases x with
  | stops => exact h.stops _ hk
  | _ => exact fun hu => h.id_ne (hk.symm.trans hu)

theorem serves_of_stopPath? {t : Trip α} {i : Nat} {p : StopPath α} (h : t.stopPath? i = some p) :
    t.Serves p.stop :=
  ⟨p, List.mem_of_getElem? h, rfl⟩

end Trip

namespace Statistics

variable {α : Type} {t u : Trip α} {now : Int} {s s' : Statistics α}

/-! ## Writes to keys of a trip -/

/-- Statistics that go by the same rules and answer alike at a reading of the clock, except about
what belongs to a trip. -/
structure SameOff (u : Trip α) (now : Int) (s s' : Statistics α) : Prop where
  rules : s.SameRules s'
  get?_eq : ∀ (x : Shelf) (k : x.Key), ¬u.Owns x k →
    (s'.shelf x).get? now k = (s.shelf x).get? now k

/-- Statistics that go by the same rules and answer alike at every reading of the clock. -/
structure Alike (s s' : Statistics α) : Prop where
  rules : s.SameRules s'
  get?_eq : ∀ (x : Shelf) (reading : Int) (k : x.Key),
    (s'.shelf x).get? reading k = (s.shelf x).get? reading k

theorem Alike.refl (s : Statistics α) : s.Alike s := ⟨.refl s, fun _ _ _ => rfl⟩

/-- All keys of a run of writes belong to a trip. -/
def WritesOf (t : Trip α) (ws : List (Write α)) : Prop := ∀ w ∈ ws, t.Owns w.shelf w.change.key

theorem WritesOf.owns {ws : List (Write α)} (h : WritesOf t ws) {x : Shelf} {k : x.Key}
    (hk : Touches ws x k) : t.Owns x k := by
  obtain ⟨change, hmem, rfl⟩ := hk
  exact h _ hmem

/-- Writes that push nothing out leave alone what does not belong to their trip. -/
theorem WellKept.sameOff (h : s.WellKept) {ws : List (Write α)} (hws : WritesOf u ws)
    (hspares : SparesAll now s ws) : SameOff u now s (s.writeAll now ws) where
  rules := s.writeAll_rules now ws
  get?_eq x _ hk := (h.rewritten_writeAll hspares x).get?_eq fun htouched => hk (hws.owns htouched)

/-- The same write keeps statistics the same but for what belongs to a trip. -/
theorem SameOff.write (h : SameOff u now s s') (hs : s.WellKept) (hs' : s'.WellKept) {w : Write α}
    (hspares : SparesAll now s [w]) (hspares' : SparesAll now s' [w]) :
    SameOff u now (s.write now w) (s'.write now w) where
  rules := (s.write_rules now w).symm.trans (h.rules.trans (s'.write_rules now w))
  get?_eq x k hk := by
    obtain ⟨y, change⟩ := w
    by_cases hx : y = x
    · subst hx
      rw [shelf_write_self, shelf_write_self]
      by_cases hself : k = change.key
      · subst hself
        have hvalue : change.valueIn (s'.shelf y) now = change.valueIn (s.shelf y) now := by
          cases change with
          | put k v => rfl
          | update k make => exact congrArg make (h.get?_eq y k hk)
        rw [(hs y).get?_perform_self, (hs' y).get?_perform_self, hvalue]
      · rw [((hs y).rewritten_perform hspares.1).get?_eq hself,
          ((hs' y).rewritten_perform hspares'.1).get?_eq hself, h.get?_eq y k hk]
    · rw [shelf_write_of_ne s now hx, shelf_write_of_ne s' now hx, h.get?_eq x k hk]

theorem SameOff.writeAll (h : SameOff u now s s') (hs : s.WellKept) (hs' : s'.WellKept)
    {ws : List (Write α)} (hspares : SparesAll now s ws) (hspares' : SparesAll now s' ws) :
    SameOff u now (s.writeAll now ws) (s'.writeAll now ws) := by
  induction ws generalizing s s' with
  | nil => exact h
  | cons w rest ih =>
    exact ih (h.write hs hs' ⟨hspares.1, trivial⟩ ⟨hspares'.1, trivial⟩) (hs.write now w)
      (hs'.write now w) hspares.2 hspares'.2

/-- Writes of two trips that are apart can change places. -/
theorem writeAll_swap (hs : s.WellKept) (hapart : t.Apart u) {vs ws : List (Write α)}
    (hvs : WritesOf t vs) (hws : WritesOf u ws) (hv : SparesAll now s vs)
    (hvw : SparesAll now (s.writeAll now vs) ws) (hw : SparesAll now s ws)
    (hwv : SparesAll now (s.writeAll now ws) vs) :
    Alike ((s.writeAll now vs).writeAll now ws) ((s.writeAll now ws).writeAll now vs) := by
  have hkept := hs.writeAll now vs
  have hkept' := hs.writeAll now ws
  have hnow : ∀ (x : Shelf) (k : x.Key),
      (((s.writeAll now ws).writeAll now vs).shelf x).get? now k =
        (((s.writeAll now vs).writeAll now ws).shelf x).get? now k := by
    intro x k
    by_cases hk : u.Owns x k
    · -- what belongs to `u` is as after the writes of `u` alone
      have hother : ¬t.Owns x k := hapart.symm.not_owns hk
      have hlast := (hkept'.sameOff hvs hwv).get?_eq x k hother
      have hfirst := ((hs.sameOff hvs hv).writeAll hs hkept hw hvw).get?_eq x k hother
      exact hlast.trans hfirst.symm
    · -- and anything else as after the writes of `t` alone
      have hlast := (hkept.sameOff hws hvw).get?_eq x k hk
      have hfirst := ((hs.sameOff hws hw).writeAll hs hkept' hv hwv).get?_eq x k hk
      exact hfirst.trans hlast.symm
  have hvs := hs.rewritten_writeAll (SparesAll.append.mpr ⟨hv, hvw⟩)
  have hws := hs.rewritten_writeAll (SparesAll.append.mpr ⟨hw, hwv⟩)
  refine ⟨?_, fun x reading k => ?_⟩
  · rw [← writeAll_append, ← writeAll_append]
    exact (s.writeAll_rules now _).symm.trans (s.writeAll_rules now _)
  · have htouches : Touches (ws ++ vs) x = Touches (vs ++ ws) x := by
      funext j
      rw [touches_append, touches_append, or_comm]
    have hrewritten := hws x
    rw [htouches] at hrewritten
    rw [writeAll_append] at hrewritten
    have hrewritten' := hvs x
    rw [writeAll_append] at hrewritten'
    exact hrewritten.get?_agree (hs x) hrewritten' (fun j _ => hnow x j) reading k

/-! ## Changes for a trip -/

variable [Scalar α]

/-- Whether a change is for a trip. -/
def Change.On (t : Trip α) : Change α → Prop
  | .travel seg _ _ => seg.trip = t ∧ t.Serves seg.stop
  | .estimate p => p.trip = t.id
  | .event ev => ev.trip = t.id ∧ t.Serves ev.stop

theorem owns_meanWrite (frequencyBased : Bool) {k : PathKey} (hk : k.trip = t.id)
    (duration : Int) :
    t.Owns (meanWrite frequencyBased k duration : Write α).shelf
      (meanWrite frequencyBased k duration : Write α).change.key := by
  cases frequencyBased <;> exact hk

theorem writesOf_travelWrites (log : EventLog) {arrival : StopEvent}
    (htrip : arrival.trip = t.id) : WritesOf t (s.travelWrites log arrival) := by
  rw [travelWrites]
  cases log.previousDeparture? arrival with
  | none => exact fun w hw => absurd hw List.not_mem_nil
  | some departure =>
    dsimp only
    split
    · intro w hw
      rw [List.mem_singleton.mp hw]
      exact owns_meanWrite _ htrip _
    · exact fun w hw => absurd hw List.not_mem_nil

theorem writesOf_dwellWrites (log : EventLog) {departure : StopEvent}
    (htrip : departure.trip = t.id) (headway : Option Int) :
    WritesOf t (s.dwellWrites log departure headway) := by
  rw [dwellWrites]
  cases log.matchingArrival? departure with
  | none => exact fun w hw => absurd hw List.not_mem_nil
  | some arrival =>
    dsimp only
    split
    · intro w hw
      rcases List.mem_cons.mp hw with rfl | hw
      · exact owns_meanWrite _ htrip _
      · obtain ⟨gap, -, rfl⟩ := List.mem_map.mp hw
        exact htrip
    · exact fun w hw => absurd hw List.not_mem_nil

/-- A change for a trip writes keys of the trip. -/
theorem Change.On.writesOf {c : Change α} (hc : c.On t) (s : Statistics α) (now : Int) :
    WritesOf t (c.writes s now) := by
  cases c with
  | travel seg c methods =>
    intro w hw
    obtain ⟨error, -, rfl⟩ := List.mem_map.mp hw
    exact congrArg Trip.id hc.1
  | estimate p =>
    intro w hw
    rw [List.mem_singleton.mp hw]
    exact hc
  | event ev =>
    intro w hw
    rcases List.mem_cons.mp hw with rfl | hw
    · exact hc.1
    · rcases List.mem_append.mp hw with hw | hw
      · split at hw
        · exact writesOf_travelWrites _ hc.1 w hw
        · exact writesOf_dwellWrites _ hc.1 _ w hw
      · rw [List.mem_singleton.mp hw]
        exact hc.2

theorem writesOf_of_on {changes : List (Change α)} (hon : ∀ c ∈ changes, c.On t)
    (s : Statistics α) (now : Int) : WritesOf t (writesOf now s changes) := by
  induction changes generalizing s with
  | nil => exact fun w hw => absurd hw List.not_mem_nil
  | cons c rest ih =>
    intro w hw
    rcases List.mem_append.mp hw with hw | hw
    · exact (hon c List.mem_cons_self).writesOf s now w hw
    · exact ih (fun d hd => hon d (List.mem_cons_of_mem _ hd)) (s.change now c) w hw

end Statistics

end NextStop
