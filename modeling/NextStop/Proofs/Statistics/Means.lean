import Mathlib.Algebra.Field.Rat
import Mathlib.Tactic.FieldSimp
import Mathlib.Tactic.Positivity
import Mathlib.Tactic.Ring
import NextStop.Proofs.Statistics.Spans
import NextStop.Statistics.Query

/-!
# The means of a history

The running means are kept event by event, each from the log of a run that is still growing. As long
as the caches lose nothing, this comes to the same as looking at the whole history at once: events
that are put in one after the other in the order of time leave under every key the running mean of
its durations, `Statistics.Averages`. Over exact numbers, this is their mean.
-/

namespace NextStop

namespace RunningMean

variable {α : Type} [Scalar α]

/-- The running mean of durations that are added one after the other. -/
def ofDurations (durations : List Int) : RunningMean α :=
  durations.foldl (fun m (duration : Int) => m.add (duration : α)) .empty

/-- The running mean of durations, if there are any. -/
def ofDurations? (durations : List Int) : Option (RunningMean α) :=
  if durations = [] then none else some (ofDurations durations)

theorem ofDurations_concat (durations : List Int) (duration : Int) :
    (ofDurations (durations ++ [duration]) : RunningMean α) =
      (ofDurations durations).add (duration : α) := by
  rw [ofDurations, List.foldl_append]
  rfl

/-- With one more duration or none, the running mean is that before with the duration added. -/
theorem ofDurations?_append (durations : List Int) (duration? : Option Int) :
    (ofDurations? (durations ++ duration?.toList) : Option (RunningMean α)) =
      duration?.elim (ofDurations? durations) fun duration =>
        some (((ofDurations? durations).getD .empty).add (duration : α)) := by
  cases duration? with
  | none => exact congrArg ofDurations? (List.append_nil durations)
  | some duration =>
    rw [Option.toList_some, Option.elim_some, ofDurations?, if_neg (by simp), ofDurations_concat]
    cases durations with
    | nil => rfl
    | cons first rest => rfl

theorem count_ofDurations (durations : List Int) :
    (ofDurations durations : RunningMean α).count = durations.length := by
  induction durations using List.reverseRecOn with
  | nil => rfl
  | append_singleton durations duration ih =>
    rw [ofDurations_concat, List.length_append, ← ih]
    rfl

/-- In exact arithmetic, each duration moves the mean to that of one duration more. -/
theorem mean_ofDurations (durations : List Int) :
    (ofDurations durations : RunningMean Rat).mean =
      (durations.sum : Rat) / (durations.length : Rat) := by
  induction durations using List.reverseRecOn with
  | nil =>
    rw [List.length_nil, Nat.cast_zero, div_zero]
    rfl
  | append_singleton durations duration ih =>
    have hadd : ∀ m : RunningMean Rat, (m.add (duration : Rat)).mean =
        m.mean + ((duration : Rat) - m.mean) / ((m.count + 1 : Nat) : Rat) := fun _ => rfl
    rw [ofDurations_concat, hadd, ih, count_ofDurations, List.sum_append, List.length_append,
      List.sum_singleton, List.length_singleton]
    push_cast
    rcases Nat.eq_zero_or_pos durations.length with hnil | hpos
    · simp [List.eq_nil_of_length_eq_zero hnil]
    · have hlength : (0 : Rat) < durations.length := Nat.cast_pos.mpr hpos
      have hmore : (durations.length : Rat) + 1 ≠ 0 := by positivity
      field_simp
      ring

/-- The count of a running mean of durations is their number, and there is none without them. -/
theorem map_count_ofDurations? (durations : List Int) :
    (ofDurations? durations : Option (RunningMean α)).map (·.count) =
      if durations = [] then none else some durations.length := by
  rw [ofDurations?]
  split
  · rfl
  · rw [Option.map_some, count_ofDurations]

theorem map_mean_ofDurations? (durations : List Int) :
    (ofDurations? durations : Option (RunningMean Rat)).map (·.mean) =
      if durations = [] then none
      else some ((durations.sum : Rat) / (durations.length : Rat)) := by
  rw [ofDurations?]
  split
  · rfl
  · rw [Option.map_some, mean_ofDurations]

end RunningMean

/-! ## Caches that lose nothing -/

namespace ExpiringCache

variable {κ β : Type} [Ord κ]

/-- Nothing in a cache has expired, and all its keys are still there in another one. -/
def Intact (c c' : ExpiringCache κ β) (now : Int) : Prop :=
  c.AllLive now ∧ ∀ k ∈ c.entries.keys, k ∈ c'.entries

instance (c c' : ExpiringCache κ β) (now : Int) : Decidable (c.Intact c' now) :=
  inferInstanceAs (Decidable (_ ∧ _))

variable [Std.TransOrd κ] [Std.LawfulEqOrd κ]

/-- After a change that loses nothing, a cache holds what was written and what it held. -/
theorem WellKept.held?_perform [DecidableEq κ] {c : ExpiringCache κ β} (h : c.WellKept) {now : Int}
    {change : Change κ β} (hintact : c.Intact (c.perform (now, change)) now) (k : κ) :
    (c.perform (now, change)).held? k =
      if change.key = k then some (change.valueIn c now) else c.held? k := by
  obtain ⟨hlive, hkeys⟩ := hintact
  have hrewritten := h.rewritten_perform (spares_of_keys hkeys now)
  split
  · rename_i hk
    subst hk
    rw [held?, h.getElem?_perform_self change, Option.map_some]
  · rename_i hk
    have hentry : (c.perform (now, change)).entries[k]? = c.entries[k]? := by
      apply Option.ext
      intro e
      refine ⟨fun he => ((hrewritten.kept k e (Ne.symm hk)).mp he).1, fun he => ?_⟩
      have hmem := Std.TreeMap.mem_toList_iff_getElem?_eq_some.mpr he
      exact hrewritten.kept_of_live (Ne.symm hk) he (hlive (k, e) hmem)
    rw [held?, hentry, held?]

end ExpiringCache

/-! ## Means and durations -/

namespace Statistics

variable {α : Type}

/-- The means of service at intervals, or those of service with a timetable. -/
def meansOf (s : Statistics α) : Bool → ExpiringCache PathKey (RunningMean α)
  | true => s.frequencyMeans
  | false => s.scheduleMeans

theorem mean?_eq_get? (s : Statistics α) (now : Int) (frequencyBased : Bool) (k : PathKey) :
    s.mean? now frequencyBased k = (s.meansOf frequencyBased).get? now k := by
  cases frequencyBased <;> rfl

theorem WellKept.meansOf {s : Statistics α} (h : s.WellKept) (frequencyBased : Bool) :
    (s.meansOf frequencyBased).WellKept := by
  cases frequencyBased with
  | true => exact h .frequencyMeans
  | false => exact h .scheduleMeans

theorem isSome_bucket_eventPathKey (s : Statistics α) (q : Quantity) (e : StopEvent) :
    (s.eventPathKey q e).bucket.isSome = e.frequencyBased := by
  rw [eventPathKey, pathKey]
  cases e.frequencyBased <;> rfl

/-- Nothing in the runs and means has expired, and all their keys are still there in other
statistics. -/
def Intact (s s' : Statistics α) (now : Int) : Prop :=
  s.runs.Intact s'.runs now ∧
    ∀ frequencyBased, (s.meansOf frequencyBased).Intact (s'.meansOf frequencyBased) now

instance (s s' : Statistics α) (now : Int) : Decidable (s.Intact s' now) :=
  inferInstanceAs (Decidable (_ ∧ _))

variable [Scalar α]

/-- Events that are put in one after the other, each at a reading of the clock, lose nothing, and in
the end no mean has expired. -/
def IntactAll (now : Int) : Statistics α → List (Int × StopEvent) → Prop
  | s, [] => ∀ frequencyBased, (s.meansOf frequencyBased).AllLive now
  | s, p :: rest => s.Intact (s.put p.1 p.2) p.1 ∧ IntactAll now (s.put p.1 p.2) rest

instance decidableIntactAll (now : Int) :
    (s : Statistics α) → (puts : List (Int × StopEvent)) → Decidable (IntactAll now s puts)
  | s, [] => inferInstanceAs (Decidable (∀ frequencyBased, (s.meansOf frequencyBased).AllLive now))
  | s, p :: rest =>
    have := decidableIntactAll now (s.put p.1 p.2) rest
    inferInstanceAs (Decidable (_ ∧ _))

/-- The change that adds a duration to the mean of a key. -/
def meanChange (k : PathKey) (duration : Int) :
    ExpiringCache.Change PathKey (RunningMean α) :=
  .update k fun m => (m.getD .empty).add (duration : α)

theorem meansOf_addToMean (s : Statistics α) (now : Int) (frequencyBased : Bool) (k : PathKey)
    (duration : Int) (which : Bool) :
    (s.addToMean now frequencyBased k duration).meansOf which =
      if frequencyBased = which then (s.meansOf which).perform (now, meanChange k duration)
      else s.meansOf which := by
  cases frequencyBased <;> cases which <;> rfl

theorem meansOf_recordTravel (s : Statistics α) (now : Int) (log : EventLog) {arrival : StopEvent}
    (hkind : arrival.kind = .arrival) (which : Bool) :
    (s.recordTravel now log arrival).meansOf which =
      (log.span? s.settings .travel arrival).elim (s.meansOf which) fun duration =>
        (s.addToMean now arrival.frequencyBased (s.eventPathKey .travel arrival)
          duration).meansOf which := by
  rw [recordTravel, log.previousDeparture?_eq hkind, EventLog.span?]
  cases log.beginning? .travel arrival with
  | none => rfl
  | some first =>
    have hplausible : s.settings.durationPlausible .travel = s.settings.travelPlausible := rfl
    rw [Option.map_some, Option.filter_some, hplausible]
    dsimp only
    split <;> rfl

theorem meansOf_recordDwell (s : Statistics α) (now : Int) (log : EventLog) {departure : StopEvent}
    (hkind : departure.kind = .departure) (headway : Option Int) (which : Bool) :
    (s.recordDwell now log departure headway).meansOf which =
      (log.span? s.settings .dwell departure).elim (s.meansOf which) fun duration =>
        (s.addToMean now departure.frequencyBased (s.eventPathKey .dwell departure)
          duration).meansOf which := by
  rw [recordDwell, log.matchingArrival?_eq hkind, EventLog.span?]
  cases log.beginning? .dwell departure with
  | none => rfl
  | some first =>
    have hplausible : s.settings.durationPlausible .dwell = s.settings.dwellPlausible := rfl
    rw [Option.map_some, Option.filter_some, hplausible]
    dsimp only
    split
    · cases headway <;> cases which <;> rfl
    · rfl

/-- Of the means, an event changes that of the duration which ends with it. -/
theorem meansOf_put (s : Statistics α) (now : Int) (e : StopEvent) (which : Bool) :
    (s.put now e).meansOf which =
      ((s.runWith now e).span? s.settings (.endingWith e.kind) e).elim (s.meansOf which)
        fun duration => if e.frequencyBased = which then
          (s.meansOf which).perform
            (now, meanChange (s.eventPathKey (.endingWith e.kind) e) duration)
          else s.meansOf which := by
  have hstop : ∀ s' : Statistics α, (s'.pushStop now e).meansOf which = s'.meansOf which := by
    intro s'
    cases which <;> rfl
  have hrun : (s.pushRun now e).meansOf which = s.meansOf which := by cases which <;> rfl
  have hadd : ∀ k duration, ((s.pushRun now e).addToMean now e.frequencyBased k duration).meansOf
      which = if e.frequencyBased = which then
        (s.meansOf which).perform (now, meanChange k duration) else s.meansOf which := by
    intro k duration
    rw [meansOf_addToMean, hrun]
  rw [put, hstop]
  cases hkind : e.kind with
  | arrival =>
    dsimp only
    rw [meansOf_recordTravel _ now _ hkind]
    simp only [hadd, hrun]
    rfl
  | departure =>
    dsimp only
    rw [meansOf_recordDwell _ now _ hkind]
    simp only [hadd, hrun]
    rfl

/-! ## The means of a whole history -/

/-- The runs are those of a history, and under every key there is the running mean of its
durations. -/
structure Averages (s : Statistics α) (history : List StopEvent) : Prop where
  kept : s.WellKept
  runs : s.runs.HoldsLogs s.runKey history
  means : ∀ k : PathKey, (s.meansOf k.bucket.isSome).held? k =
    RunningMean.ofDurations? (s.spans k history)

theorem averages_empty (settings : Settings α) : (empty settings).Averages [] where
  kept := .empty settings
  runs _ := rfl
  means k := by cases k.bucket.isSome <;> rfl

variable {s : Statistics α} {history : List StopEvent} {now : Int} {e : StopEvent}

/-- The log of a run with a later event in it has the events of the run in order. -/
theorem Averages.toList_runWith (h : s.Averages history) (hlive : s.runs.AllLive now)
    (hordered : EventLog.InOrder (history ++ [e])) :
    (s.runWith now e).toList = (history ++ [e]).filter fun x => s.runKey x == s.runKey e := by
  have hlog : some (s.runWith now e) =
      EventLog.ofEvents? ((history ++ [e]).filter fun x => s.runKey x == s.runKey e) := by
    have hself : [e].filter (fun x => s.runKey x == s.runKey e) = [e] :=
      List.filter_cons_of_pos (beq_self_eq_true (s.runKey e))
    rw [runWith, run?, hlive.get?_eq, h.runs, List.filter_append, hself,
      EventLog.ofEvents?_concat]
  have hsorted : ((history ++ [e]).filter fun x => s.runKey x == s.runKey e).mergeSort
      (·.time ≤ ·.time) = (history ++ [e]).filter fun x => s.runKey x == s.runKey e := by
    refine List.mergeSort_of_pairwise ?_
    exact (hordered.filter _).imp decide_eq_true
  have htoList := EventLog.map_toList_ofEvents?
    ((history ++ [e]).filter fun x => s.runKey x == s.runKey e)
  rw [← hlog, Option.map_some, EventLog.sorted?, hsorted] at htoList
  split at htoList
  · contradiction
  · exact Option.some.inj htoList

/-- What an event makes of the mean under a key. -/
theorem held?_meansOf_put (hkept : s.WellKept) (hintact : s.Intact (s.put now e) now)
    (k : PathKey) : ((s.put now e).meansOf k.bucket.isSome).held? k =
      if s.eventPathKey (.endingWith e.kind) e = k then
        ((s.runWith now e).span? s.settings (.endingWith e.kind) e).elim
          ((s.meansOf k.bucket.isSome).held? k) fun duration =>
            some ((((s.meansOf k.bucket.isSome).held? k).getD .empty).add (duration : α))
      else (s.meansOf k.bucket.isSome).held? k := by
  have hmeans := hintact.2 k.bucket.isSome
  rw [meansOf_put] at hmeans ⊢
  generalize (s.runWith now e).span? s.settings (.endingWith e.kind) e = duration? at hmeans ⊢
  cases duration? with
  | none =>
    rw [Option.elim_none, Option.elim_none]
    split <;> rfl
  | some duration =>
    rw [Option.elim_some] at hmeans ⊢
    rw [Option.elim_some]
    by_cases hservice : e.frequencyBased = k.bucket.isSome
    · rw [if_pos hservice] at hmeans ⊢
      rw [(hkept.meansOf _).held?_perform hmeans]
      by_cases hk : s.eventPathKey (.endingWith e.kind) e = k
      · rw [if_pos hk]
        refine (if_pos hk).trans ?_
        rw [← hmeans.1.get?_eq, ← hk]
        rfl
      · rw [if_neg hk]
        exact if_neg hk
    · -- the key belongs to the other kind of service
      have hk : s.eventPathKey (.endingWith e.kind) e ≠ k := by
        rintro rfl
        exact hservice (s.isSome_bucket_eventPathKey _ e).symm
      rw [if_neg hservice, if_neg hk]

/-- A later event that is put in without loss leaves the means of the history with the event. -/
theorem Averages.put (h : s.Averages history) (hintact : s.Intact (s.put now e) now)
    (hlate : (history ++ [e]).Pairwise fun a b => a.time < b.time) :
    (s.put now e).Averages (history ++ [e]) := by
  have hsettings : (s.put now e).settings = s.settings := (s.put_same now e).settings
  have hordered : EventLog.InOrder (history ++ [e]) := hlate.imp Int.le_of_lt
  have hruns : (s.put now e).runs = s.runs.perform (now, .put (s.runKey e) (s.runWith now e)) :=
    (s.put_same now e).runs
  have hkeptRuns : s.runs.WellKept := h.kept .runs
  have hintactRuns := hintact.1
  rw [hruns] at hintactRuns
  have hlive := hintact.1.1
  refine ⟨h.kept.put now e, ?_, fun k => ?_⟩
  · rw [runKey_eq_of_settings hsettings, hruns]
    refine h.runs.push fun k => ?_
    rw [hkeptRuns.held?_perform hintactRuns, ← hlive.get?_eq (s.runKey e)]
    rfl
  · have hbefore : ∀ last ∈ history, last.time < e.time := by
      intro last hlast
      exact (List.pairwise_append.mp hlate).2.2 last hlast e (List.mem_singleton_self e)
    have hrun : EventLog.InOrder (s.runWith now e).toList := by
      rw [h.toList_runWith hlive hordered]
      exact hordered.filter _
    have hspan := s.span?_of_log hrun (h.toList_runWith hlive hordered) (.endingWith e.kind)
    rw [spans_eq_of_settings hsettings, spans_concat s k hbefore,
      held?_meansOf_put h.kept hintact, h.means, ← hspan]
    split
    · exact (RunningMean.ofDurations?_append _ _).symm
    · rw [List.append_nil]

/-- So do events that are put in one after the other in the order of time. -/
theorem Averages.putAll (h : s.Averages history) {puts : List (Int × StopEvent)}
    (hintact : s.IntactAll now puts)
    (hordered : (history ++ puts.map Prod.snd).Pairwise fun a b => a.time < b.time) :
    (s.putAll puts).Averages (history ++ puts.map Prod.snd) ∧
      ∀ frequencyBased, ((s.putAll puts).meansOf frequencyBased).AllLive now := by
  induction puts generalizing s history with
  | nil =>
    rw [List.map_nil, List.append_nil]
    exact ⟨h, hintact⟩
  | cons p rest ih =>
    have hsplit : history ++ (p :: rest).map Prod.snd =
        history ++ [p.2] ++ rest.map Prod.snd := by simp
    rw [hsplit] at hordered ⊢
    exact ih (h.put hintact.1 (List.pairwise_append.mp hordered).1) hintact.2 hordered

omit [Scalar α] in
theorem meanByKey?_eq_held? (hlive : ∀ frequencyBased, (s.meansOf frequencyBased).AllLive now)
    (k : PathKey) : s.meanByKey? now k = (s.meansOf k.bucket.isSome).held? k := by
  rw [meanByKey?, mean?_eq_get?, (hlive _).get?_eq]

/-- Without loss, the mean under a key is in the end the running mean of its durations. -/
theorem meanByKey?_putAll (settings : Settings α) {puts : List (Int × StopEvent)}
    (hordered : (puts.map Prod.snd).Pairwise fun a b => a.time < b.time)
    (hintact : (empty settings).IntactAll now puts) (k : PathKey) :
    ((empty settings).putAll puts).meanByKey? now k =
      RunningMean.ofDurations? ((empty settings).spans k (puts.map Prod.snd)) := by
  obtain ⟨hmeans, hlive⟩ := (averages_empty settings).putAll hintact hordered
  rw [meanByKey?_eq_held? hlive, hmeans.means, spans_eq_of_settings (settings_putAll _ puts),
    List.nil_append]

end Statistics

end NextStop
