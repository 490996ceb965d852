import Mathlib.Data.List.Induction
import Mathlib.Data.Rat.Star
import Mathlib.LinearAlgebra.Matrix.Notation
import Mathlib.LinearAlgebra.Matrix.PosDef
import NextStop.Proofs.Statistics.Histories

/-!
# Dwell models are least squares fits

A dwell model takes in one pair of a headway and a dwell time after another and keeps two weights
and a covariance. Over exact numbers, its weights are those of a fit of the whole list at once: the
line with the least sum of squared errors, where each sample counts less by the forgetting factor
than the one after it, and where a thousandth of the squared weights, discounted as often, is added.

The covariance is the inverse of the matrix of the normal equations of that fit. Every sample adds
a matrix of rank one, and what has to be shown is how the inverse changes with it. As the matrix is
positive definite, so is the covariance; hence the denominator of the gain is at least the
forgetting factor, and no sample is left out. That the factor is at most one is not needed.
-/

namespace NextStop

namespace DwellModel

open Matrix

/-! ## Weights and covariance -/

/-- The two parameters of the line. -/
def weights (m : DwellModel ℚ) : Fin 2 → ℚ := ![m.intercept, m.slope]

/-- The covariance of the two parameters. -/
def covariance (m : DwellModel ℚ) : Matrix (Fin 2) (Fin 2) ℚ := !![m.p00, m.p01; m.p10, m.p11]

/-- What the weights are multiplied with, to predict the dwell time after a headway. -/
def regressor (headway : ℚ) : Fin 2 → ℚ := ![1, headway]

/-- The denominator of the gain of a sample. -/
def denominator (m : DwellModel ℚ) (headway forgetting : ℚ) : ℚ :=
  forgetting + (m.p00 + m.p01 * headway) + headway * (m.p10 + m.p11 * headway)

/-- Whether a sample is left out, because its gain is undefined. -/
def LeavesOut (m : DwellModel ℚ) (headway forgetting : ℚ) : Prop :=
  let denom := m.denominator headway forgetting
  (!Scalar.isFinite denom) = true ∨ 0 - Scalar.epsilon < denom ∧ denom < Scalar.epsilon

theorem covariance_mulVec_regressor (m : DwellModel ℚ) (headway : ℚ) :
    m.covariance *ᵥ regressor headway =
      ![m.p00 + m.p01 * headway, m.p10 + m.p11 * headway] := by
  funext i
  fin_cases i <;> simp [covariance, regressor, mulVec, dotProduct]

theorem denominator_eq (m : DwellModel ℚ) (headway forgetting : ℚ) :
    m.denominator headway forgetting =
      forgetting + regressor headway ⬝ᵥ (m.covariance *ᵥ regressor headway) := by
  rw [covariance_mulVec_regressor, denominator]
  simp [regressor, dotProduct]
  ring

theorem add_of_leavesOut {m : DwellModel ℚ} {headway forgetting : ℚ}
    (h : m.LeavesOut headway forgetting) (dwell : ℚ) : m.add headway dwell forgetting = m :=
  if_pos h

/-- A sample that is taken in: the weights move by the gain times the error, and a matrix of rank
one is taken from the covariance. -/
theorem add_of_not_leavesOut {m : DwellModel ℚ} {headway forgetting : ℚ}
    (h : ¬m.LeavesOut headway forgetting) (dwell : ℚ) :
    let x := regressor headway
    let gain := (m.denominator headway forgetting)⁻¹ • (m.covariance *ᵥ x)
    let m' := m.add headway dwell forgetting
    m'.weights = m.weights + (dwell - x ⬝ᵥ m.weights) • gain ∧
      m'.covariance = forgetting⁻¹ • (m.covariance - vecMulVec gain (m.covariance *ᵥ x)) ∧
      m'.samples = m.samples + 1 := by
  intro x gain m'
  let denom := m.denominator headway forgetting
  let px0 := m.p00 + m.p01 * headway
  let px1 := m.p10 + m.p11 * headway
  have hx : m.covariance *ᵥ x = ![px0, px1] := m.covariance_mulVec_regressor headway
  have hgain : gain = ![px0 / denom, px1 / denom] := by
    simp only [gain, hx, smul_cons, smul_empty, smul_eq_mul, div_eq_inv_mul, denom]
  have herr : dwell - x ⬝ᵥ m.weights = dwell - m.predict headway := by
    rw [show m.predict headway = m.intercept + m.slope * headway from rfl]
    simp [x, regressor, weights]
    ring
  have hadd : m' = ⟨m.intercept + px0 / denom * (dwell - m.predict headway),
      m.slope + px1 / denom * (dwell - m.predict headway),
      (m.p00 - px0 / denom * px0) / forgetting, (m.p01 - px0 / denom * px1) / forgetting,
      (m.p10 - px1 / denom * px0) / forgetting, (m.p11 - px1 / denom * px1) / forgetting,
      m.samples + 1⟩ := if_neg h
  rw [hadd, hgain, herr, hx]
  refine ⟨?_, ?_, rfl⟩
  · funext i
    fin_cases i <;> simp [weights, mul_comm]
  · ext i j
    fin_cases i <;> fin_cases j <;> exact div_eq_inv_mul _ _

/-! ## Discounted sums -/

/-- The sum of what samples contribute, where each counts less by a factor than the one after
it. -/
def discounted {V : Type} [AddCommMonoid V] [SMul ℚ V] (l : ℚ) (f : ℚ × ℚ → V)
    (samples : List (ℚ × ℚ)) : V :=
  ∑ i : Fin samples.length, l ^ (samples.length - 1 - i) • f samples[i]

theorem discounted_concat {V : Type} [AddCommGroup V] [Module ℚ V] (l : ℚ) (f : ℚ × ℚ → V)
    (samples : List (ℚ × ℚ)) (s : ℚ × ℚ) :
    discounted l f (samples ++ [s]) = l • discounted l f samples + f s := by
  have hlength : samples.length + 1 = (samples ++ [s]).length := by simp
  rw [discounted, ← Equiv.sum_comp (finCongr hlength), Fin.sum_univ_castSucc, discounted,
    Finset.smul_sum]
  congr 1
  · refine Finset.sum_congr rfl fun i _ => ?_
    have hexponent : samples.length - 1 - i + 1 = samples.length - i := by omega
    rw [smul_smul, ← pow_succ', hexponent]
    simp [← hlength]
  · simp [← hlength]

/-- The matrix of the normal equations. -/
def normalMatrix (l : ℚ) (samples : List (ℚ × ℚ)) : Matrix (Fin 2) (Fin 2) ℚ :=
  (l ^ samples.length / 1000) • 1 +
    discounted l (fun s => vecMulVec (regressor s.1) (regressor s.1)) samples

/-- The right side of the normal equations. -/
def normalVector (l : ℚ) (samples : List (ℚ × ℚ)) : Fin 2 → ℚ :=
  discounted l (fun s => s.2 • regressor s.1) samples

/-- The squared errors that weights make on samples, and their squared length. -/
def loss (l : ℚ) (samples : List (ℚ × ℚ)) (w : Fin 2 → ℚ) : ℚ :=
  l ^ samples.length / 1000 * (w ⬝ᵥ w) +
    discounted l (fun s => (s.2 - regressor s.1 ⬝ᵥ w) ^ 2) samples

theorem normalMatrix_nil (l : ℚ) : normalMatrix l [] = (1 / 1000 : ℚ) • 1 := by
  simp [normalMatrix, discounted]

theorem normalMatrix_concat (l : ℚ) (samples : List (ℚ × ℚ)) (s : ℚ × ℚ) :
    normalMatrix l (samples ++ [s]) =
      l • normalMatrix l samples + vecMulVec (regressor s.1) (regressor s.1) := by
  rw [normalMatrix, normalMatrix, discounted_concat, smul_add, smul_smul, List.length_append,
    List.length_singleton, pow_succ', mul_div_assoc, add_assoc]

theorem normalVector_concat (l : ℚ) (samples : List (ℚ × ℚ)) (s : ℚ × ℚ) :
    normalVector l (samples ++ [s]) = l • normalVector l samples + s.2 • regressor s.1 :=
  discounted_concat l _ samples s

theorem loss_concat (l : ℚ) (samples : List (ℚ × ℚ)) (s : ℚ × ℚ) (w : Fin 2 → ℚ) :
    loss l (samples ++ [s]) w = l * loss l samples w + (s.2 - regressor s.1 ⬝ᵥ w) ^ 2 := by
  rw [loss, loss, discounted_concat, List.length_append, List.length_singleton, pow_succ',
    smul_eq_mul]
  ring

theorem normalMatrix_posDef {l : ℚ} (hl : 0 < l) (samples : List (ℚ × ℚ)) :
    (normalMatrix l samples).PosDef := by
  induction samples using List.reverseRecOn with
  | nil =>
    rw [normalMatrix_nil]
    exact PosDef.one.smul (by norm_num)
  | append_singleton samples s ih =>
    rw [normalMatrix_concat]
    exact (ih.smul hl).add_posSemidef (posSemidef_vecMulVec_self_star (regressor s.1))

/-- The loss as a quadratic function of the weights, made of the two sides of the normal
equations. -/
theorem loss_eq (l : ℚ) (samples : List (ℚ × ℚ)) (w : Fin 2 → ℚ) :
    loss l samples w = w ⬝ᵥ (normalMatrix l samples *ᵥ w) - 2 * (w ⬝ᵥ normalVector l samples) +
      discounted l (fun s => s.2 ^ 2) samples := by
  induction samples using List.reverseRecOn with
  | nil =>
    simp [loss, normalMatrix, normalVector, discounted, smul_mulVec]
  | append_singleton samples s ih =>
    have hsquare : w ⬝ᵥ (vecMulVec (regressor s.1) (regressor s.1) *ᵥ w) =
        (regressor s.1 ⬝ᵥ w) ^ 2 := by
      rw [vecMulVec_mulVec, dotProduct_smul, dotProduct_comm w, pow_two]
      rfl
    rw [loss_concat, ih, normalMatrix_concat, normalVector_concat, discounted_concat, add_mulVec,
      dotProduct_add, dotProduct_add, hsquare, smul_mulVec, dotProduct_smul, dotProduct_smul,
      dotProduct_smul, dotProduct_comm w (regressor s.1)]
    simp only [smul_eq_mul]
    ring

/-! ## Matrices of rank one -/

section RankOne

variable {P A : Matrix (Fin 2) (Fin 2) ℚ} {x : Fin 2 → ℚ} {l denom : ℚ}

/-- How the inverse of a symmetric matrix changes when a matrix of rank one is added. -/
theorem correction_mul (hinverse : P * A = 1) (hsymm : P.IsSymm) (hl : l ≠ 0) (hdenom : denom ≠ 0)
    (heq : denom = l + x ⬝ᵥ (P *ᵥ x)) :
    (l⁻¹ • (P - vecMulVec (denom⁻¹ • (P *ᵥ x)) (P *ᵥ x))) * (l • A + vecMulVec x x) = 1 := by
  set y := P *ᵥ x with hy
  have hback : y ᵥ* A = x := by
    rw [hy, ← vecMul_transpose, hsymm.eq, vecMul_vecMul, hinverse, vecMul_one]
  have hleft : (P - vecMulVec (denom⁻¹ • y) y) * (l • A) =
      l • (1 - denom⁻¹ • vecMulVec y x) := by
    rw [Matrix.mul_smul, Matrix.sub_mul, hinverse, vecMulVec_mul, hback, smul_vecMulVec]
  have hright : (P - vecMulVec (denom⁻¹ • y) y) * vecMulVec x x =
      (1 - denom⁻¹ * (x ⬝ᵥ y)) • vecMulVec y x := by
    rw [Matrix.sub_mul, mul_vecMulVec, vecMulVec_mul_vecMulVec, vecMulVec_smul, smul_vecMulVec,
      smul_smul, dotProduct_comm y x, mul_comm (x ⬝ᵥ y), sub_smul, one_smul]
  have hcancel : 1 - denom⁻¹ * (x ⬝ᵥ y) = l * denom⁻¹ := by
    field_simp
    linarith
  calc (l⁻¹ • (P - vecMulVec (denom⁻¹ • y) y)) * (l • A + vecMulVec x x)
    _ = l⁻¹ • (l • (1 - denom⁻¹ • vecMulVec y x) + (l * denom⁻¹) • vecMulVec y x) := by
      rw [Matrix.smul_mul, Matrix.mul_add, hleft, hright, hcancel]
    _ = 1 := by
      rw [mul_smul, ← smul_add, smul_smul, inv_mul_cancel₀ hl, one_smul, sub_add_cancel]

/-- The corrected covariance takes what a sample is predicted from to the gain of the sample. -/
theorem correction_mulVec (hl : l ≠ 0) (hdenom : denom ≠ 0) (heq : denom = l + x ⬝ᵥ (P *ᵥ x)) :
    (l⁻¹ • (P - vecMulVec (denom⁻¹ • (P *ᵥ x)) (P *ᵥ x))) *ᵥ x = denom⁻¹ • (P *ᵥ x) := by
  set y := P *ᵥ x with hy
  have hcancel : l⁻¹ - l⁻¹ * (denom⁻¹ * (x ⬝ᵥ y)) = denom⁻¹ := by
    field_simp
    linarith
  calc (l⁻¹ • (P - vecMulVec (denom⁻¹ • y) y)) *ᵥ x
    _ = l⁻¹ • (y - (denom⁻¹ * (x ⬝ᵥ y)) • y) := by
      rw [smul_mulVec, sub_mulVec, ← hy, smul_vecMulVec, smul_mulVec, vecMulVec_mulVec,
        dotProduct_comm y x, op_smul_eq_smul, smul_smul]
    _ = denom⁻¹ • y := by
      rw [smul_sub, smul_smul, ← sub_smul, hcancel]

end RankOne

/-! ## The recursion -/

/-- The model is the fit of samples: its covariance is the inverse of the matrix of their normal
equations, and its weights are the solution. -/
structure Fits (l : ℚ) (samples : List (ℚ × ℚ)) (m : DwellModel ℚ) : Prop where
  inverse : m.covariance * normalMatrix l samples = 1
  solves : normalMatrix l samples *ᵥ m.weights = normalVector l samples
  count : m.samples = samples.length

theorem Fits.initial (l : ℚ) : Fits l [] (initial : DwellModel ℚ) where
  inverse := by
    have hthousand : (Scalar.ofNat 1000 : ℚ) = 1000 := rfl
    have hcovariance : (DwellModel.initial : DwellModel ℚ).covariance = (1000 : ℚ) • 1 := by
      ext i j
      fin_cases i <;> fin_cases j <;> simp [covariance, DwellModel.initial, hthousand]
    rw [hcovariance, normalMatrix_nil, smul_mul_smul_comm, Matrix.one_mul]
    norm_num
  solves := by
    have hweights : (DwellModel.initial : DwellModel ℚ).weights = 0 := by
      funext i
      fin_cases i <;> rfl
    rw [hweights, mulVec_zero]
    rfl
  count := rfl

variable {l : ℚ} {samples : List (ℚ × ℚ)} {m : DwellModel ℚ}

theorem Fits.covariance_posDef (h : Fits l samples m) (hl : 0 < l) : m.covariance.PosDef := by
  rw [← inv_eq_left_inv h.inverse]
  exact (normalMatrix_posDef hl samples).inv

theorem Fits.le_denominator (h : Fits l samples m) (hl : 0 < l) (headway : ℚ) :
    l ≤ m.denominator headway l := by
  rw [denominator_eq]
  have hnonneg := (h.covariance_posDef hl).posSemidef.dotProduct_mulVec_nonneg (regressor headway)
  exact le_add_of_nonneg_right hnonneg

theorem Fits.not_leavesOut (h : Fits l samples m) (hl : 1 / 2 ≤ l) (headway : ℚ) :
    ¬m.LeavesOut headway l := by
  rintro (hinfinite | ⟨-, hsmall⟩)
  · cases hinfinite
  · have hle := h.le_denominator (by linarith) headway
    have hepsilon : (Scalar.epsilon : ℚ) < 1 / 2 := by decide +kernel
    exact absurd (hsmall.trans hepsilon) (not_lt.mpr (hl.trans hle))

/-- With another sample, the corrected covariance is the inverse again, and it takes the regressor
to the gain, so that the weights, moved by the gain times the error, solve the new equations. -/
theorem Fits.add (h : Fits l samples m) (hl : 1 / 2 ≤ l) (s : ℚ × ℚ) :
    Fits l (samples ++ [s]) (m.add s.1 s.2 l) := by
  have hpos : 0 < l := by linarith
  obtain ⟨hweights, hcovariance, hcount⟩ := add_of_not_leavesOut (h.not_leavesOut hl s.1) s.2
  have hdenom : m.denominator s.1 l = l + regressor s.1 ⬝ᵥ (m.covariance *ᵥ regressor s.1) :=
    denominator_eq ..
  have hdenom_ne : m.denominator s.1 l ≠ 0 := (hpos.trans_le (h.le_denominator hpos s.1)).ne'
  have hsymm : m.covariance.IsSymm :=
    isHermitian_iff_isSymm.mp (h.covariance_posDef hpos).isHermitian
  have hinverse : (m.add s.1 s.2 l).covariance * normalMatrix l (samples ++ [s]) = 1 := by
    rw [hcovariance, normalMatrix_concat]
    exact correction_mul h.inverse hsymm hpos.ne' hdenom_ne hdenom
  have hgain : (m.add s.1 s.2 l).covariance *ᵥ regressor s.1 =
      (m.denominator s.1 l)⁻¹ • (m.covariance *ᵥ regressor s.1) := by
    rw [hcovariance]
    exact correction_mulVec hpos.ne' hdenom_ne hdenom
  refine ⟨hinverse, ?_, ?_⟩
  · let x := regressor s.1
    let err := s.2 - x ⬝ᵥ m.weights
    calc normalMatrix l (samples ++ [s]) *ᵥ (m.add s.1 s.2 l).weights
      _ = normalMatrix l (samples ++ [s]) *ᵥ m.weights + err • x := by
        rw [hweights, ← hgain, mulVec_add, mulVec_smul, mulVec_mulVec,
          mul_eq_one_comm.mp hinverse, one_mulVec]
      _ = l • normalVector l samples + (x ⬝ᵥ m.weights) • x + err • x := by
        rw [normalMatrix_concat, add_mulVec, smul_mulVec, h.solves, vecMulVec_mulVec,
          op_smul_eq_smul]
      _ = l • normalVector l samples + s.2 • x := by
        rw [add_assoc, ← add_smul, add_sub_cancel]
      _ = normalVector l (samples ++ [s]) := (normalVector_concat l samples s).symm
  · rw [hcount, h.count, List.length_append, List.length_singleton]

/-- The model after samples. -/
def fit (l : ℚ) (samples : List (ℚ × ℚ)) : DwellModel ℚ :=
  samples.foldl (fun m s => m.add s.1 s.2 l) initial

theorem fits_fit (hl : 1 / 2 ≤ l) (samples : List (ℚ × ℚ)) : Fits l samples (fit l samples) := by
  induction samples using List.reverseRecOn with
  | nil => exact Fits.initial l
  | append_singleton samples s ih =>
    rw [fit, List.foldl_append]
    exact ih.add hl s

/-! ## The fit -/

/-- The weights of the model are the only solution of the normal equations. -/
theorem Fits.solution_iff (h : Fits l samples m) (w : Fin 2 → ℚ) :
    normalMatrix l samples *ᵥ w = normalVector l samples ↔ w = m.weights := by
  refine ⟨fun hw => ?_, fun hw => by rw [hw, h.solves]⟩
  calc w
    _ = m.covariance *ᵥ (normalMatrix l samples *ᵥ w) := by
      rw [mulVec_mulVec, h.inverse, one_mulVec]
    _ = m.covariance *ᵥ (normalMatrix l samples *ᵥ m.weights) := by rw [hw, h.solves]
    _ = m.weights := by rw [mulVec_mulVec, h.inverse, one_mulVec]

/-- What other weights lose. -/
theorem Fits.loss_eq_add (h : Fits l samples m) (hl : 0 < l) (w : Fin 2 → ℚ) :
    loss l samples w = loss l samples m.weights +
      (w - m.weights) ⬝ᵥ (normalMatrix l samples *ᵥ (w - m.weights)) := by
  have hsymm : (normalMatrix l samples).IsSymm :=
    isHermitian_iff_isSymm.mp (normalMatrix_posDef hl samples).isHermitian
  have hswap : m.weights ⬝ᵥ (normalMatrix l samples *ᵥ w) =
      w ⬝ᵥ (normalMatrix l samples *ᵥ m.weights) := by
    rw [dotProduct_mulVec, ← mulVec_transpose, hsymm.eq, dotProduct_comm]
  rw [loss_eq, loss_eq, ← h.solves, mulVec_sub, dotProduct_sub, sub_dotProduct, sub_dotProduct,
    hswap]
  ring

end DwellModel

/-! ## The models of the stops -/

namespace DwellModels

/-- A headway and a dwell time, in milliseconds, that are added under a key at a time. -/
structure Addition where
  now : Int
  key : PathKey
  headway : Int
  dwell : Int

/-- The models after additions. -/
def addAll (d : DwellModels ℚ) (additions : List Addition) : DwellModels ℚ :=
  additions.foldl (fun d a => d.add a.now a.key a.headway a.dwell) d

/-- The samples that are added under a key, in seconds. -/
def samplesOf (k : PathKey) (additions : List Addition) : List (ℚ × ℚ) :=
  (additions.filter fun a => a.key = k).map fun a => (seconds a.headway, seconds a.dwell)

theorem half_le_forgetting (capacity : Nat) (lifetime : Int) (forgetting : ℚ) (minSamples : Nat) :
    1 / 2 ≤ (empty capacity lifetime forgetting minSamples).forgetting := by
  show (1 / 2 : ℚ) ≤ if forgetting < 1 / 2 then 1 / 2 else if 1 < forgetting then 1 else forgetting
  split
  · exact le_refl _
  · split
    · norm_num
    · exact not_lt.mp ‹_›

theorem addAll_forgetting (d : DwellModels ℚ) (additions : List Addition) :
    (d.addAll additions).forgetting = d.forgetting := by
  induction additions generalizing d with
  | nil => rfl
  | cons a rest ih => exact ih (d.add a.now a.key a.headway a.dwell)

/-- Every model is the fit of the samples that were added under its key last. -/
def Fitted (d : DwellModels ℚ) (additions : List Addition) : Prop :=
  d.cache.AllEntries fun k m => ∃ samples, samples ≠ [] ∧ samples <:+ samplesOf k additions ∧
    m.Fits d.forgetting samples

theorem Fitted.add {d : DwellModels ℚ} {additions : List Addition} (h : d.Fitted additions)
    (hl : 1 / 2 ≤ d.forgetting) (a : Addition) :
    (d.add a.now a.key a.headway a.dwell).Fitted (additions ++ [a]) := by
  let s : ℚ × ℚ := (seconds a.headway, seconds a.dwell)
  have hself : samplesOf a.key (additions ++ [a]) = samplesOf a.key additions ++ [s] := by
    simp [samplesOf, s]
  dsimp only [Fitted, DwellModels.add]
  refine ExpiringCache.AllEntries.update h (fun m hm => ?_) (fun k m hkey hold => ?_) a.now
  · rw [hself]
    cases m with
    | none =>
      exact ⟨[s], List.cons_ne_nil _ _, List.suffix_append _ _,
        (DwellModel.Fits.initial _).add hl s⟩
    | some m =>
      obtain ⟨samples, -, ⟨before, hsplit⟩, hfits⟩ := hm m rfl
      refine ⟨samples ++ [s], List.concat_ne_nil _ _, ⟨before, ?_⟩, hfits.add hl s⟩
      rw [← hsplit, List.append_assoc]
  · have hsame : samplesOf k (additions ++ [a]) = samplesOf k additions := by
      simp [samplesOf, hkey]
    rw [hsame]
    exact hold

/-- Whatever is added at whatever times, the model of a key is the fit of the samples that were
added under it last: of all of them, or of those since its entry expired or was evicted. -/
theorem addAll_fitted (capacity : Nat) (lifetime : Int) (forgetting : ℚ) (minSamples : Nat)
    (additions : List Addition) :
    ((empty capacity lifetime forgetting minSamples).addAll additions).Fitted additions := by
  induction additions using List.reverseRecOn with
  | nil =>
    rw [Fitted]
    exact ExpiringCache.AllEntries.empty capacity lifetime _
  | append_singleton additions a ih =>
    rw [addAll, List.foldl_append]
    refine ih.add ?_ a
    rw [addAll_forgetting]
    exact half_le_forgetting ..

end DwellModels

end NextStop
