import Mathlib.Algebra.Order.Field.Rat
import Mathlib.Tactic.Linarith
import Mathlib.Tactic.Positivity
import NextStop.Scalar

/-!
# Exact scalars

Over exact numbers, rounding and clamping keep the order, and they leave alone what is whole or
within the bounds already.
-/

namespace NextStop

namespace Scalar

/-! ## Rounding -/

theorem round_of_nonneg {q : Rat} (h : 0 ≤ q) : round q = (q + 1 / 2).floor := if_neg (not_lt.mpr h)

theorem round_of_neg {q : Rat} (h : q < 0) : round q = -(-q + 1 / 2).floor := if_pos h

theorem round_nonneg {q : Rat} (h : 0 ≤ q) : 0 ≤ round q := by
  have hsum : (0 : Rat) ≤ q + 1 / 2 := by positivity
  rw [round_of_nonneg h, Rat.le_floor_iff]
  exact_mod_cast hsum

theorem round_intCast (n : Int) : round (n : Rat) = n := by
  have hfloor : ∀ k : Int, ((k : Rat) + 1 / 2).floor = k := by
    intro k
    apply le_antisymm
    · rw [← Int.lt_add_one_iff, Rat.floor_lt_iff]
      push_cast
      linarith
    · rw [Rat.le_floor_iff]
      linarith
  rcases le_or_gt 0 (n : Rat) with h | h
  · rw [round_of_nonneg h, hfloor]
  · rw [round_of_neg h, ← Int.cast_neg, hfloor, neg_neg]

theorem round_mono {p q : Rat} (h : p ≤ q) : round p ≤ round q := by
  have hfloor : ∀ {a b : Rat}, a ≤ b → (a + 1 / 2).floor ≤ (b + 1 / 2).floor :=
    fun hab => Rat.floor_monotone (by linarith)
  rcases lt_or_ge p 0 with hp | hp
  · rw [round_of_neg hp]
    rcases lt_or_ge q 0 with hq | hq
    · rw [round_of_neg hq]
      exact Int.neg_le_neg (hfloor (neg_le_neg h))
    · -- zero lies between the two
      have hfirst : 0 ≤ (-p + 1 / 2).floor := by
        rw [Rat.le_floor_iff]
        push_cast
        linarith
      have hlast := round_nonneg hq
      omega
  · rw [round_of_nonneg hp, round_of_nonneg (hp.trans h)]
    exact hfloor h

/-- Part of a span of time, rounded, is a span that is not longer. -/
theorem round_mul_bounds {n : Int} {q : Rat} (hn : 0 ≤ n) (hq : 0 ≤ q) (hwhole : q ≤ 1) :
    0 ≤ round ((n : Rat) * q) ∧ round ((n : Rat) * q) ≤ n := by
  have hn : (0 : Rat) ≤ n := by exact_mod_cast hn
  constructor
  · exact round_nonneg (mul_nonneg hn hq)
  · have hround := round_mono (mul_le_of_le_one_right hn hwhole)
    rwa [round_intCast] at hround

/-! ## Bounds -/

theorem clamp_eq_max_min {lo hi : Rat} (h : lo ≤ hi) (q : Rat) :
    clamp lo hi q = max lo (min hi q) := by
  unfold clamp
  split
  · rename_i hlo
    exact (max_eq_left (min_le_of_right_le hlo.le)).symm
  · rename_i hlo
    split
    · rename_i hhi
      rw [min_eq_left hhi.le, max_eq_right h]
    · rename_i hhi
      rw [min_eq_right (not_lt.mp hhi), max_eq_right (not_lt.mp hlo)]

theorem clamp_nonneg (q : Rat) : 0 ≤ clamp 0 1 q := by
  rw [clamp_eq_max_min zero_le_one]
  exact le_max_left 0 _

theorem clamp_le_one (q : Rat) : clamp 0 1 q ≤ 1 := by
  rw [clamp_eq_max_min zero_le_one]
  exact max_le zero_le_one (min_le_left 1 q)

theorem clamp_mono {p q : Rat} (h : p ≤ q) : clamp 0 1 p ≤ clamp 0 1 q := by
  rw [clamp_eq_max_min zero_le_one, clamp_eq_max_min zero_le_one]
  exact max_le_max_left 0 (min_le_min_left 1 h)

theorem clamp_of_mem {q : Rat} (hlo : 0 ≤ q) (hhi : q ≤ 1) : clamp 0 1 q = q := by
  rw [clamp_eq_max_min zero_le_one, min_eq_right hhi, max_eq_right hlo]

theorem positivePart_of_nonneg {q : Rat} (h : 0 ≤ q) : positivePart q = q := by
  unfold positivePart
  split
  · rfl
  · rename_i hnot
    exact le_antisymm h (not_lt.mp hnot)

theorem positivePart_nonneg (q : Rat) : 0 ≤ positivePart q := by
  unfold positivePart
  split
  · rename_i h
    exact h.le
  · exact le_refl 0

/-- Less a gap, a number is no greater. -/
theorem sub_positivePart_le (q gap : Rat) : q - positivePart gap ≤ q :=
  sub_le_self q (positivePart_nonneg gap)

end Scalar

end NextStop
