import Mathlib.Data.List.Induction
import NextStop.Proofs.Scalar
import NextStop.Records.FillAlarm

/-!
# What the alarm remembers

Of all the levels that it has seen, the alarm keeps one bit, and its two thresholds make this bit
a statement about the past: the level was above the limit once and has stayed above the limit less
the gap since. `FillAlarm.Holds` is that statement. It is carried over by a check whatever the
level, because what exceeds the limit exceeds the lower threshold too; this is all that has to be
known of the scalars.
-/

namespace NextStop

namespace FillAlarm

variable {α : Type} [Scalar α]

/-- The alarm after checks of some levels, one after another. -/
def checkAll (a : FillAlarm α) (levels : List α) : FillAlarm α := levels.foldl check a

/-- What the checks of some levels answer. -/
def answers (a : FillAlarm α) : List α → List Bool
  | [] => []
  | level :: rest => decide (a.threshold < level) :: (a.check level).answers rest

/-- Some level was above `limit`, and every later one above `floor`. -/
def Holds (limit floor : α) (levels : List α) : Prop :=
  ∃ (earlier : List α) (level : α) (later : List α), levels = earlier ++ level :: later ∧
    limit < level ∧ ∀ x ∈ later, floor < x

/-- With one more level, this holds because of that level, or it held before and that level is
above the floor. -/
theorem holds_concat_iff {limit floor : α} {levels : List α} {last : α} :
    Holds limit floor (levels ++ [last]) ↔
      limit < last ∨ Holds limit floor levels ∧ floor < last := by
  constructor
  · rintro ⟨earlier, level, later, heq, hlevel, hlater⟩
    rcases List.eq_nil_or_concat later with rfl | ⟨front, x, rfl⟩
    · obtain ⟨-, hlast⟩ := List.append_inj' heq rfl
      obtain rfl : last = level := by simpa using hlast
      exact Or.inl hlevel
    · rw [List.concat_eq_append, ← List.cons_append, ← List.append_assoc] at heq
      obtain ⟨rfl, hlast⟩ := List.append_inj' heq rfl
      obtain rfl : last = x := by simpa using hlast
      rw [List.concat_eq_append] at hlater
      exact Or.inr ⟨⟨earlier, level, front, rfl, hlevel,
        fun y hy => hlater y (List.mem_append_left _ hy)⟩,
        hlater last (List.mem_append_right _ (List.mem_singleton_self last))⟩
  · rintro (hlast | ⟨⟨earlier, level, later, rfl, hlevel, hlater⟩, hlast⟩)
    · exact ⟨levels, last, [], rfl, hlast, fun x hx => absurd hx List.not_mem_nil⟩
    · refine ⟨earlier, level, later ++ [last], by simp, hlevel, ?_⟩
      intro x hx
      rcases List.mem_append.mp hx with hx | hx
      · exact hlater x hx
      · rwa [List.mem_singleton.mp hx]

/-- Checks change the alarm only, neither its limit nor its gap. -/
theorem checkAll_eq (a : FillAlarm α) (levels : List α) :
    a.checkAll levels = { a with active := (a.checkAll levels).active } := by
  induction levels generalizing a with
  | nil => rfl
  | cons level rest ih => exact ih (a.check level)

theorem checkAll_concat (a : FillAlarm α) (levels : List α) (last : α) :
    a.checkAll (levels ++ [last]) = (a.checkAll levels).check last :=
  List.foldl_append

/-- The last answer is whether the alarm is on. -/
theorem getLastD_answers (a : FillAlarm α) (levels : List α) :
    (a.answers levels).getLastD a.active = (a.checkAll levels).active := by
  induction levels generalizing a with
  | nil => rfl
  | cons level rest ih =>
    rw [answers, List.getLastD_cons]
    exact ih (a.check level)

/-- What a check makes of an alarm that is on exactly if `P` holds. -/
theorem check_active_iff {a : FillAlarm α} {P : Prop} (h : a.active = true ↔ P) {level : α}
    (hfloor : a.limit < level → a.limit - a.gap < level) :
    (a.check level).active = true ↔ a.limit < level ∨ P ∧ a.limit - a.gap < level := by
  rw [check, decide_eq_true_eq, threshold]
  split
  · rename_i hactive
    -- here the limit is no condition of its own
    constructor
    · exact fun hlevel => Or.inr ⟨h.mp hactive, hlevel⟩
    · exact fun hlevel => hlevel.elim hfloor And.right
  · rename_i hactive
    constructor
    · exact Or.inl
    · exact fun hlevel => hlevel.resolve_right fun hP => hactive (h.mpr hP.1)

/-- After any checks, the alarm is on exactly if one of the levels was above the limit and all
later ones above the limit less the gap, and so the last check has answered. -/
theorem checkAll_active_iff {limit gap : α}
    (hfloor : ∀ level, limit < level → limit - Scalar.positivePart gap < level)
    (levels : List α) :
    (((quiet limit gap).checkAll levels).active = true ↔
      Holds limit (limit - Scalar.positivePart gap) levels) ∧
      ((quiet limit gap).answers levels).getLastD false =
        ((quiet limit gap).checkAll levels).active := by
  refine ⟨?_, (quiet limit gap).getLastD_answers levels⟩
  induction levels using List.reverseRecOn with
  | nil =>
    constructor
    · intro hactive
      contradiction
    · rintro ⟨earlier, level, later, heq, -⟩
      exact absurd heq.symm (List.append_ne_nil_of_right_ne_nil _ (List.cons_ne_nil _ _))
  | append_singleton levels last ih =>
    rw [holds_concat_iff, checkAll_concat]
    rw [checkAll_eq] at ih ⊢
    exact check_active_iff ih (hfloor last)

/-- A level between the thresholds keeps the alarm on, and one below both ends it. -/
theorem checkAll_active_between :
    let a : FillAlarm Rat := quiet (2 / 5) (1 / 10)
    let levels : List Rat := [7 / 20, 9 / 20, 7 / 20]
    (a.checkAll levels).active = true ∧
      a.answers (levels ++ [1 / 4]) = [false, true, true, false] ∧
      (a.checkAll (levels ++ [1 / 4])).active = false := by
  intro a levels
  have hfloor : ∀ level : Rat, 2 / 5 < level → 2 / 5 - Scalar.positivePart (1 / 10) < level :=
    fun _ => (Scalar.sub_positivePart_le _ _).trans_lt
  have hlevels : Holds (2 / 5) (2 / 5 - Scalar.positivePart (1 / 10)) levels :=
    ⟨[7 / 20], 9 / 20, [7 / 20], rfl, by decide +kernel, by decide +kernel⟩
  have hanswers : a.answers (levels ++ [1 / 4]) = [false, true, true, false] := by decide +kernel
  refine ⟨(checkAll_active_iff hfloor levels).1.mpr hlevels, hanswers, ?_⟩
  rw [← (checkAll_active_iff hfloor (levels ++ [1 / 4])).2]
  exact congrArg (List.getLastD · false) hanswers

end FillAlarm

end NextStop
