import NextStop.Proofs.Statistics.Means

/-!
# Means have samples

The means change by nothing but samples, and a sample is a travel or dwell time that is plausible,
so that it is not negative. What every such sample preserves holds of all means in statistics that
come from empty ones by any changes, at any readings of the clock: `Statistics.allMeans_changeEach`.
-/

namespace NextStop

namespace Settings

variable {α : Type} (s : Settings α)

theorem nonneg_of_travelPlausible {duration : Int} (h : s.travelPlausible duration = true) :
    0 ≤ duration := by
  rw [travelPlausible, Bool.and_eq_true, decide_eq_true_eq, decide_eq_true_eq] at h
  exact Int.le_trans (Span.ofSeconds_nonneg s.minTravel) h.1

theorem nonneg_of_dwellPlausible {duration : Int} (h : s.dwellPlausible duration = true) :
    0 ≤ duration := by
  rw [dwellPlausible, Bool.and_eq_true, decide_eq_true_eq, decide_eq_true_eq] at h
  exact h.1

theorem nonneg_of_durationPlausible {q : Quantity} {duration : Int}
    (h : s.durationPlausible q duration = true) : 0 ≤ duration := by
  cases q with
  | dwell => exact s.nonneg_of_dwellPlausible h
  | travel => exact s.nonneg_of_travelPlausible h

end Settings

namespace RunningMean

variable {α : Type} [Scalar α]

/-- What every sample preserves, the first one included. -/
def KeptBySamples (P : RunningMean α → Prop) : Prop :=
  ∀ (m? : Option (RunningMean α)) (duration : Int), 0 ≤ duration → (∀ m ∈ m?, P m) →
    P ((m?.getD .empty).add (duration : α))

theorem kept_count : KeptBySamples fun m : RunningMean α => 0 < m.count :=
  fun _ _ _ _ => Nat.succ_pos _

/-- In exact arithmetic, the mean of what is not negative is not negative. -/
theorem kept_nonneg : KeptBySamples fun m : RunningMean Rat => 0 ≤ m.mean := by
  intro m? duration hduration hbefore
  have hadd : ∀ m : RunningMean Rat, (m.add (duration : Rat)).mean =
      m.mean + ((duration : Rat) - m.mean) / ((m.count + 1 : Nat) : Rat) := fun _ => rfl
  have hmean : 0 ≤ (m?.getD RunningMean.empty).mean := by
    cases m? with
    | none => exact le_refl (0 : Rat)
    | some m => exact hbefore m rfl
  have hsample : (0 : Rat) ≤ duration := by exact_mod_cast hduration
  rw [hadd]
  generalize (m?.getD RunningMean.empty).mean = mean at hmean ⊢
  generalize (m?.getD RunningMean.empty).count = count
  have hweights : mean + ((duration : Rat) - mean) / ((count + 1 : Nat) : Rat) =
      (count * mean + duration) / ((count + 1 : Nat) : Rat) := by
    push_cast
    field_simp
    ring
  rw [hweights]
  positivity

end RunningMean

namespace Statistics

variable {α : Type}

/-- Something holds of all means. -/
def AllMeans (s : Statistics α) (P : RunningMean α → Prop) : Prop :=
  ∀ frequencyBased, (s.meansOf frequencyBased).AllEntries fun _ m => P m

theorem AllMeans.of_segmentMean? {s : Statistics α} {P : RunningMean α → Prop} (h : s.AllMeans P)
    {now : Int} {seg : Segment α} {q : Quantity} {time : Int} {m : RunningMean α}
    (hm : s.segmentMean? now seg q time = some m) : P m := by
  rw [segmentMean?, mean?_eq_get?] at hm
  exact (h _).of_get? hm

variable [Scalar α] {s : Statistics α} {P : RunningMean α → Prop}

theorem allMeans_empty (settings : Settings α) (P : RunningMean α → Prop) :
    (empty settings).AllMeans P := by
  intro frequencyBased
  cases frequencyBased <;> exact .empty _ _ _

/-- An event adds a sample at most. -/
theorem AllMeans.put (hP : RunningMean.KeptBySamples P) (h : s.AllMeans P) (now : Int)
    (e : StopEvent) : (s.put now e).AllMeans P := by
  intro which
  rw [meansOf_put]
  cases hspan : (s.runWith now e).span? s.settings (.endingWith e.kind) e with
  | none => exact h which
  | some duration =>
    have hduration : 0 ≤ duration :=
      s.settings.nonneg_of_durationPlausible (Option.filter_eq_some_iff.mp hspan).2
    rw [Option.elim_some]
    split
    · rw [meanChange, ExpiringCache.perform]
      exact (h which).update (fun m? => hP m? duration hduration) (fun _ _ _ hm => hm) now
    · exact h which

theorem meansOf_travel (s : Statistics α) (now : Int) (seg : Segment α) (c : Situation)
    (methods : List Method) (which : Bool) :
    (Estimate.travel now seg c methods s).2.meansOf which = s.meansOf which := by
  have helsewhere : ∀ x : Shelf, .kalmanErrors ≠ x →
      ∀ w ∈ (Estimate.errors now seg c methods s).map (errorWrite seg), w.shelf ≠ x := by
    intro x hx w hw
    obtain ⟨error, -, rfl⟩ := List.mem_map.mp hw
    exact hx
  rw [travel_eq_writeAll]
  cases which with
  | false => exact s.shelf_writeAll_of_ne now (helsewhere .scheduleMeans (by decide))
  | true => exact s.shelf_writeAll_of_ne now (helsewhere .frequencyMeans (by decide))

theorem AllMeans.putKalmanError (h : s.AllMeans P) (now : Int) (seg : Segment α) (error : α) :
    (s.putKalmanError now seg error).AllMeans P := by
  intro which
  cases which with
  | false => exact h false
  | true => exact h true

/-- An estimate changes no mean. -/
theorem AllMeans.travel (h : s.AllMeans P) (now : Int) (seg : Segment α) (c : Situation)
    (methods : List Method) : (Estimate.travel now seg c methods s).2.AllMeans P := by
  intro which
  rw [meansOf_travel]
  exact h which

theorem AllMeans.change (hP : RunningMean.KeptBySamples P) (h : s.AllMeans P) (now : Int)
    (c : Change α) : (s.change now c).AllMeans P := by
  cases c with
  | travel seg c methods => exact h.travel now seg c methods
  | estimate p =>
    intro which
    cases which with
    | false => exact h false
    | true => exact h true
  | event ev => exact h.put hP now ev

/-- What every sample preserves holds of all means. -/
theorem allMeans_changeEach (settings : Settings α) (changes : List (Int × Change α))
    (hP : RunningMean.KeptBySamples P) : ((empty settings).changeEach changes).AllMeans P := by
  induction changes using List.reverseRecOn with
  | nil => exact allMeans_empty settings P
  | append_singleton changes p ih =>
    rw [changeEach, List.foldl_append]
    exact ih.change hP p.1 p.2

theorem changeEach_rules (s : Statistics α) (changes : List (Int × Change α)) :
    s.SameRules (s.changeEach changes) := by
  induction changes generalizing s with
  | nil => exact .refl s
  | cons p rest ih =>
    have hfirst := s.writeAll_rules p.1 (p.2.writes s p.1)
    rw [← change_eq_writeAll] at hfirst
    exact hfirst.trans (ih (s.change p.1 p.2))

end Statistics

/-- A mean is trusted if there is one, with samples behind it and enough of them. -/
theorem Estimate.trustedMean?_eq_some_iff {α : Type} {s : Statistics α} {now : Int}
    {seg : Segment α} {q : Quantity} {time : Int} {mean : α} :
    trustedMean? s now seg q time = some mean ↔
      ∃ m, s.segmentMean? now seg q time = some m ∧ s.settings.minSamples ≤ m.count ∧
        0 < m.count ∧ m.mean = mean := by
  rw [trustedMean?, Option.bind_eq_some_iff]
  refine exists_congr fun m => and_congr_right fun _ => ?_
  rw [RunningMean.trusted?, RunningMean.mean?]
  split
  · rename_i hfew
    simp [Nat.not_le.mpr hfew]
  · rename_i henough
    split
    · rename_i hnone
      simp [hnone]
    · rename_i hsome
      simp [Nat.not_lt.mp henough, Nat.pos_of_ne_zero hsome]

end NextStop
