import NextStop.Proofs.Statistics.EventOrder
import NextStop.Proofs.Statistics.WriteOrder
import NextStop.Statistics.Basic

/-!
# Histories of runs and stops

Of the statistics, the logs of runs and those of stops are the histories. As long as the caches
that hold them lose nothing, they are a function of the events that were fed into them: under
every key there is the log of the events that belong to it, `Statistics.Recalls`, and under a key
without events there is nothing.
-/

namespace NextStop

namespace ExpiringCache

variable {κ β : Type} [Ord κ]

/-- What a cache holds under a key, expired or not. -/
def held? (c : ExpiringCache κ β) (k : κ) : Option β := (c.entries[k]?).map Entry.value

/-- A write under a key, after which the cache is `c'`, found no expired value under the key, and
no key is missing after it. -/
def Retains (c c' : ExpiringCache κ β) (now : Int) (k : κ) : Prop :=
  (∀ e ∈ c.entries[k]?, c.isLive now e = true) ∧ ∀ j ∈ k :: c.entries.keys, j ∈ c'.entries

instance (c c' : ExpiringCache κ β) (now : Int) (k : κ) : Decidable (c.Retains c' now k) :=
  inferInstanceAs (Decidable (_ ∧ _))

/-- Nothing in a cache has expired. -/
def AllLive (c : ExpiringCache κ β) (now : Int) : Prop :=
  ∀ p ∈ c.entries.toList, c.isLive now p.2 = true

instance (c : ExpiringCache κ β) (now : Int) : Decidable (c.AllLive now) :=
  inferInstanceAs (Decidable (∀ p ∈ c.entries.toList, c.isLive now p.2 = true))

/-- A value that has not expired is found. -/
theorem get?_of_live {c : ExpiringCache κ β} {now : Int} {k : κ}
    (h : ∀ e ∈ c.entries[k]?, c.isLive now e = true) : c.get? now k = c.held? k := by
  rw [get?, entry?, held?]
  cases hk : c.entries[k]? with
  | none => rfl
  | some e => rw [Option.filter_some_pos (h e hk)]

variable [Std.TransOrd κ] [Std.LawfulEqOrd κ]

theorem AllLive.get?_eq {c : ExpiringCache κ β} {now : Int} (h : c.AllLive now) (k : κ) :
    c.get? now k = c.held? k :=
  get?_of_live fun e he => h (k, e) (Std.TreeMap.mem_toList_iff_getElem?_eq_some.mpr he)

/-- The keys of a cache in which nothing has expired are those under which something is held. -/
theorem AllLive.mem_keys_iff {c : ExpiringCache κ β} {now : Int} (h : c.AllLive now) (k : κ) :
    k ∈ c.keys now ↔ (c.held? k).isSome = true := by
  rw [keys, List.filter_eq_self.mpr h, Std.TreeMap.map_fst_toList_eq_keys, Std.TreeMap.mem_keys,
    held?, Option.isSome_map, Std.TreeMap.isSome_getElem?_iff_mem]

/-- Eviction changes no entry that it leaves. -/
theorem getElem?_of_evict {c : ExpiringCache κ β} {now : Int} {k : κ} {e : Entry β}
    (h : (c.evict now).entries[k]? = some e) : c.entries[k]? = some e := by
  fun_induction ExpiringCache.evict c now with
  | case1 c hpop => exact h
  | case2 c w rest hpop _ hstale ih => exact ih h
  | case3 c w rest hpop _ hcur hgo ih => exact (Table.getElem?_erase_eq_some_iff.mp (ih h)).2
  | case4 c w rest hpop _ hcur hgo => exact h

/-- An entry after a write is the one that was written, or an earlier one of another key. -/
theorem getElem?_of_put {c : ExpiringCache κ β} {now : Int} {k j : κ} {v : β} {e : Entry β}
    (h : (c.put now k v).entries[j]? = some e) :
    k = j ∧ e = ⟨v, now, c.nextGeneration⟩ ∨ k ≠ j ∧ c.entries[j]? = some e := by
  rw [put, compact_eq] at h
  have hnew := getElem?_of_evict h
  dsimp only at hnew
  by_cases hj : k = j
  · subst hj
    rw [Std.TreeMap.getElem?_insert_self, Option.some.injEq] at hnew
    exact Or.inl ⟨rfl, hnew.symm⟩
  · rw [Table.getElem?_insert_of_ne _ _ hj] at hnew
    exact Or.inr ⟨hj, hnew⟩

/-- Something holds of every value in a cache and its key. -/
def AllEntries (c : ExpiringCache κ β) (P : κ → β → Prop) : Prop :=
  ∀ k, ∀ e ∈ c.entries[k]?, P k e.value

omit [Std.LawfulEqOrd κ] in
theorem AllEntries.empty (capacity : Nat) (lifetime : Int) (P : κ → β → Prop) :
    (ExpiringCache.empty capacity lifetime).AllEntries P := by
  intro k e he
  rw [ExpiringCache.empty, Std.TreeMap.getElem?_emptyc] at he
  contradiction

omit [Std.TransOrd κ] [Std.LawfulEqOrd κ] in
theorem AllEntries.of_get? {c : ExpiringCache κ β} {P : κ → β → Prop} (h : c.AllEntries P)
    {now : Int} {k : κ} {v : β} (hget : c.get? now k = some v) : P k v := by
  obtain ⟨e, he, rfl⟩ := Option.map_eq_some_iff.mp hget
  exact h k e (Option.filter_eq_some_iff.mp he).1

/-- What holds after a write: of the written key because of the value, of the others because of
what held before. -/
theorem AllEntries.put {c : ExpiringCache κ β} {P Q : κ → β → Prop} (h : c.AllEntries P)
    {k : κ} {v : β} (hk : Q k v) (hother : ∀ j w, k ≠ j → P j w → Q j w) (now : Int) :
    (c.put now k v).AllEntries Q := by
  intro j e he
  rcases getElem?_of_put he with ⟨rfl, rfl⟩ | ⟨hj, hold⟩
  · exact hk
  · exact hother j _ hj (h j e hold)

theorem AllEntries.update {c : ExpiringCache κ β} {P Q : κ → β → Prop} (h : c.AllEntries P)
    {k : κ} {f : Option β → β} (hk : ∀ m, (∀ v ∈ m, P k v) → Q k (f m))
    (hother : ∀ j w, k ≠ j → P j w → Q j w) (now : Int) :
    (c.update now k f).AllEntries Q := by
  have herase : ExpiringCache.AllEntries { c with entries := c.entries.erase k } P :=
    fun j e he => h j e (Table.getElem?_erase_eq_some_iff.mp he).2
  exact herase.put (hk _ fun v hv => h.of_get? hv) hother now

/-- After a write that loses no key, a cache holds what was written and what it held. -/
theorem held?_put [DecidableEq κ] {c : ExpiringCache κ β} {now : Int} {k : κ} {v : β}
    (h : ∀ j ∈ k :: c.entries.keys, j ∈ (c.put now k v).entries) (j : κ) :
    (c.put now k v).held? j = if k = j then some v else c.held? j := by
  cases hj : (c.put now k v).entries[j]? with
  | none =>
    have hgone : j ∉ k :: c.entries.keys := by
      intro hmem
      obtain ⟨e, he⟩ := Table.mem_iff.mp (h j hmem)
      rw [hj] at he
      contradiction
    obtain ⟨hk, hkeys⟩ := not_or.mp (mt List.mem_cons.mpr hgone)
    have hold : j ∉ c.entries := mt Std.TreeMap.mem_keys.mpr hkeys
    rw [if_neg (Ne.symm hk), held?, hj, held?, Std.TreeMap.getElem?_eq_none hold]
  | some e =>
    rw [held?, hj, Option.map_some]
    rcases getElem?_of_put hj with ⟨hk, hv⟩ | ⟨hk, hold⟩
    · rw [if_pos hk, hv]
    · rw [if_neg hk, held?, hold, Option.map_some]

/-- A value that is taken out and written anew goes by what was held. -/
theorem Retains.held?_update [DecidableEq κ] {c : ExpiringCache κ β} {now : Int} {k : κ}
    {f : Option β → β} (h : c.Retains (c.update now k f) now k) (j : κ) :
    (c.update now k f).held? j = if k = j then some (f (c.held? k)) else c.held? j := by
  have hkeys : ∀ j ∈ k :: (c.entries.erase k).keys, j ∈ (c.update now k f).entries := by
    intro j hj
    rcases List.mem_cons.mp hj with rfl | hj
    · exact h.2 j List.mem_cons_self
    · have hold := Std.TreeMap.mem_of_mem_erase (Std.TreeMap.mem_keys.mp hj)
      exact h.2 j (List.mem_cons_of_mem _ (Std.TreeMap.mem_keys.mpr hold))
  rw [update] at hkeys ⊢
  rw [held?_put hkeys, get?_of_live h.1]
  by_cases hk : k = j
  · rw [if_pos hk, if_pos hk]
  · rw [if_neg hk, if_neg hk, held?, held?, Table.getElem?_erase_of_ne _ hk]

/-! ## Caches of logs -/

/-- Under every key, a cache has the log of the events with that key. -/
def HoldsLogs [DecidableEq κ] (c : ExpiringCache κ EventLog) (key : StopEvent → κ)
    (events : List StopEvent) : Prop :=
  ∀ k, c.held? k = EventLog.ofEvents? (events.filter fun e => key e == k)

omit [Std.TransOrd κ] [Std.LawfulEqOrd κ] in
theorem HoldsLogs.push [DecidableEq κ] {c c' : ExpiringCache κ EventLog} {key : StopEvent → κ}
    {events : List StopEvent} (h : c.HoldsLogs key events) {e : StopEvent}
    (hpush : ∀ j, c'.held? j =
      if key e = j then some (((c.held? (key e)).getD .empty).push e) else c.held? j) :
    c'.HoldsLogs key (events ++ [e]) := by
  intro j
  rw [hpush, List.filter_append]
  by_cases hj : key e = j
  · subst hj
    have hself : [e].filter (fun d => key d == key e) = [e] :=
      List.filter_cons_of_pos (beq_self_eq_true (key e))
    rw [if_pos rfl, hself, EventLog.ofEvents?_concat, h]
  · rw [if_neg hj, List.filter_cons_of_neg (by simpa using hj), List.filter_nil, List.append_nil, h]

theorem HoldsLogs.map_get? [DecidableEq κ] {c : ExpiringCache κ EventLog} {key : StopEvent → κ}
    {events : List StopEvent} (h : c.HoldsLogs key events) {now : Int} (hlive : c.AllLive now)
    (k : κ) : (c.get? now k).map EventLog.toList =
      EventLog.sorted? (events.filter fun e => key e == k) := by
  rw [hlive.get?_eq, h, EventLog.map_toList_ofEvents?]

/-- There are no other keys than those of the events. -/
theorem HoldsLogs.mem_keys_iff [DecidableEq κ] {c : ExpiringCache κ EventLog}
    {key : StopEvent → κ} {events : List StopEvent} (h : c.HoldsLogs key events) {now : Int}
    (hlive : c.AllLive now) (k : κ) : k ∈ c.keys now ↔ ∃ e ∈ events, key e = k := by
  rw [hlive.mem_keys_iff, h, EventLog.isSome_ofEvents?, ne_eq, List.filter_eq_nil_iff]
  simp

end ExpiringCache

namespace Statistics

variable {α : Type}

/-! ## The histories among the statistics -/

/-- Statistics with the same histories, and the same settings that these go by. -/
structure SameHistories (s s' : Statistics α) : Prop where
  settings : s'.settings = s.settings
  runs : s'.runs = s.runs
  stops : s'.stops = s.stops

theorem SameHistories.refl (s : Statistics α) : s.SameHistories s := ⟨rfl, rfl, rfl⟩

theorem SameHistories.symm {s s' : Statistics α} (h : s.SameHistories s') : s'.SameHistories s :=
  ⟨h.settings.symm, h.runs.symm, h.stops.symm⟩

theorem SameHistories.trans {s s' s'' : Statistics α} (h : s.SameHistories s')
    (h' : s'.SameHistories s'') : s.SameHistories s'' :=
  ⟨h'.settings.trans h.settings, h'.runs.trans h.runs, h'.stops.trans h.stops⟩

theorem runKey_eq_of_settings {s s' : Statistics α} (h : s'.settings = s.settings) :
    s'.runKey = s.runKey := by
  funext e
  rw [runKey, runKey, h]

theorem SameHistories.pushRun {s s' : Statistics α} (h : s.SameHistories s') (now : Int)
    (e : StopEvent) : (s.pushRun now e).SameHistories (s'.pushRun now e) := by
  refine ⟨h.settings, ?_, h.stops⟩
  rw [Statistics.pushRun, runWith, run?, runKey_eq_of_settings h.settings, h.runs]
  rfl

theorem SameHistories.pushStop {s s' : Statistics α} (h : s.SameHistories s') (now : Int)
    (e : StopEvent) : (s.pushStop now e).SameHistories (s'.pushStop now e) := by
  refine ⟨h.settings, h.runs, ?_⟩
  rw [Statistics.pushStop, h.stops]
  rfl

variable [Scalar α]

theorem addToMean_same (s : Statistics α) (now : Int) (frequencyBased : Bool) (k : PathKey)
    (duration : Int) : s.SameHistories (s.addToMean now frequencyBased k duration) := by
  rw [addToMean]
  split
  · exact ⟨rfl, rfl, rfl⟩
  · exact ⟨rfl, rfl, rfl⟩

theorem recordTravel_same (s : Statistics α) (now : Int) (log : EventLog) (arrival : StopEvent) :
    s.SameHistories (s.recordTravel now log arrival) := by
  rw [recordTravel]
  split
  · exact .refl s
  · dsimp only
    split
    · exact s.addToMean_same now _ _ _
    · exact .refl s

theorem recordDwell_same (s : Statistics α) (now : Int) (log : EventLog) (departure : StopEvent)
    (headway : Option Int) : s.SameHistories (s.recordDwell now log departure headway) := by
  rw [recordDwell]
  split
  · exact .refl s
  · dsimp only
    split
    · have hmean := s.addToMean_same now departure.frequencyBased
        (s.eventPathKey .dwell departure)
      split
      · exact hmean _
      · exact (hmean _).trans ⟨rfl, rfl, rfl⟩
    · exact .refl s

/-- Of the histories, an event changes the log of its run and that of its stop and day. -/
theorem put_same (s : Statistics α) (now : Int) (e : StopEvent) :
    ((s.pushRun now e).pushStop now e).SameHistories (s.put now e) := by
  cases hkind : e.kind with
  | arrival =>
    have hput : s.put now e =
        ((s.pushRun now e).recordTravel now (s.runWith now e) e).pushStop now e := by
      rw [put, hkind]
    rw [hput]
    exact (recordTravel_same _ now _ e).pushStop now e
  | departure =>
    have hput : s.put now e = ((s.pushRun now e).recordDwell now (s.runWith now e) e
        ((s.pushRun now e).observedHeadway? now e)).pushStop now e := by
      rw [put, hkind]
    rw [hput]
    exact (recordDwell_same _ now _ e _).pushStop now e

theorem SameHistories.put {s s' : Statistics α} (h : s.SameHistories s') (now : Int)
    (e : StopEvent) : (s.put now e).SameHistories (s'.put now e) :=
  (s.put_same now e).symm.trans (((h.pushRun now e).pushStop now e).trans (s'.put_same now e))

/-- The statistics after events were fed into them one after the other. -/
def feed (s : Statistics α) (now : Int) (events : List StopEvent) : Statistics α :=
  events.foldl (fun s e => s.put now e) s

theorem feed_append (s : Statistics α) (now : Int) (xs ys : List StopEvent) :
    s.feed now (xs ++ ys) = (s.feed now xs).feed now ys :=
  List.foldl_append

theorem feed_settings (s : Statistics α) (now : Int) (events : List StopEvent) :
    (s.feed now events).settings = s.settings := by
  induction events generalizing s with
  | nil => rfl
  | cons e rest ih => exact (ih (s.put now e)).trans (s.put_same now e).settings

theorem SameHistories.feed {s s' : Statistics α} (h : s.SameHistories s') (now : Int)
    (events : List StopEvent) : (s.feed now events).SameHistories (s'.feed now events) := by
  induction events generalizing s s' with
  | nil => exact h
  | cons e rest ih => exact ih (h.put now e)

/-! ## What the histories are -/

/-- An event that is fed in finds no expired log, and takes no log away. -/
def Retains (s : Statistics α) (now : Int) (e : StopEvent) : Prop :=
  s.runs.Retains (s.put now e).runs now (s.runKey e) ∧
    s.stops.Retains (s.put now e).stops now (stopDayKey e)

instance (s : Statistics α) (now : Int) (e : StopEvent) : Decidable (s.Retains now e) :=
  inferInstanceAs (Decidable (_ ∧ _))

/-- Events that are fed in one after the other find no expired log, and take no log away. -/
def RetainsAll (s : Statistics α) (now : Int) : List StopEvent → Prop
  | [] => True
  | e :: rest => s.Retains now e ∧ (s.put now e).RetainsAll now rest

instance decidableRetainsAll (s : Statistics α) (now : Int) :
    (events : List StopEvent) → Decidable (s.RetainsAll now events)
  | [] => isTrue trivial
  | e :: rest =>
    have := decidableRetainsAll (s.put now e) now rest
    inferInstanceAs (Decidable (_ ∧ _))

/-- The histories are made of events: the log of every run and of every stop and day has the
events that belong to it. -/
structure Recalls (s : Statistics α) (events : List StopEvent) : Prop where
  runs : s.runs.HoldsLogs s.runKey events
  stops : s.stops.HoldsLogs stopDayKey events

omit [Scalar α] in
theorem Recalls.congr {s s' : Statistics α} {events : List StopEvent} (h : s.Recalls events)
    (hs : s.SameHistories s') : s'.Recalls events := by
  constructor
  · rw [hs.runs, runKey_eq_of_settings hs.settings]
    exact h.runs
  · rw [hs.stops]
    exact h.stops

theorem recalls_empty (settings : Settings α) : (empty settings).Recalls [] :=
  ⟨fun _ => rfl, fun _ => rfl⟩

/-- An event whose log is retained at its stop enters it there. -/
theorem holdsLogs_stops_put {s : Statistics α} {events : List StopEvent}
    (h : s.stops.HoldsLogs stopDayKey events) {now : Int} {e : StopEvent}
    (hretains : s.stops.Retains (s.put now e).stops now (stopDayKey e)) :
    (s.put now e).stops.HoldsLogs stopDayKey (events ++ [e]) := by
  have hstops : (s.put now e).stops = s.stops.update now (stopDayKey e)
      fun log => (log.getD .empty).push e := (s.put_same now e).stops
  rw [hstops] at hretains ⊢
  exact h.push fun j => hretains.held?_update j

/-- A retained event is recalled. -/
theorem Recalls.put {s : Statistics α} {events : List StopEvent} (h : s.Recalls events)
    {now : Int} {e : StopEvent} (hretains : s.Retains now e) :
    (s.put now e).Recalls (events ++ [e]) := by
  have hruns : (s.put now e).runs = s.runs.put now (s.runKey e) (s.runWith now e) :=
    (s.put_same now e).runs
  obtain ⟨hrun, hstop⟩ := hretains
  rw [hruns] at hrun
  refine ⟨?_, holdsLogs_stops_put h.stops hstop⟩
  rw [runKey_eq_of_settings (s.put_same now e).settings, hruns]
  refine h.runs.push fun j => ?_
  rw [ExpiringCache.held?_put hrun.2, runWith, run?, ExpiringCache.get?_of_live hrun.1]

/-- Histories that lose nothing recall everything that was fed into them. -/
theorem Recalls.feed {s : Statistics α} {events : List StopEvent} (h : s.Recalls events)
    {now : Int} {more : List StopEvent} (hretains : s.RetainsAll now more) :
    (s.feed now more).Recalls (events ++ more) := by
  induction more generalizing s events with
  | nil =>
    rw [List.append_nil]
    exact h
  | cons e rest ih =>
    have hrest := ih (h.put hretains.1) hretains.2
    rwa [List.append_assoc] at hrest

end Statistics

end NextStop
