import Mathlib.Analysis.Real.Sqrt
import Mathlib.Tactic.Linarith
import Mathlib.Tactic.Ring

/-! # Score intervals

    A proportion `x` fits an observed rate `p` when the square of their distance
    is at most `a` times the variance `x (1 - x)`; for a sample of size `n` and
    a quantile `z`, `a` is `z² / n`.  The proportions that fit form an interval,
    whose lower end stays below the rate, grows with the rate, and falls with
    `a`. -/

namespace ScoreInterval

/-- The proportion `x` is within what its own variance allows of the rate `p`. -/
def Fits (a p x : ℝ) : Prop := (x - p) ^ 2 ≤ a * (x * (1 - x))

/-- Half the width of the interval, before it is scaled. -/
noncomputable def spread (a p : ℝ) : ℝ := √(a * (p * (1 - p)) + (a / 2) ^ 2)

noncomputable def lowerEnd (a p : ℝ) : ℝ := (p + a / 2 - spread a p) / (1 + a)

noncomputable def upperEnd (a p : ℝ) : ℝ := (p + a / 2 + spread a p) / (1 + a)

variable {a b p q x : ℝ}

/-! ## The interval -/

theorem radicand_nonneg (ha : 0 ≤ a) (hp : 0 ≤ p) (hp1 : p ≤ 1) :
    0 ≤ a * (p * (1 - p)) + (a / 2) ^ 2 :=
  add_nonneg (mul_nonneg ha (mul_nonneg hp (sub_nonneg.mpr hp1))) (sq_nonneg _)

theorem sq_spread (ha : 0 ≤ a) (hp : 0 ≤ p) (hp1 : p ≤ 1) :
    spread a p ^ 2 = a * (p * (1 - p)) + (a / 2) ^ 2 :=
  Real.sq_sqrt (radicand_nonneg ha hp hp1)

/-- The square completed. -/
theorem complete_square (a p x : ℝ) :
    a * (p * (1 - p)) + (a / 2) ^ 2 - ((1 + a) * x - (p + a / 2)) ^ 2
      = (1 + a) * (a * (x * (1 - x)) - (x - p) ^ 2) := by
  ring

theorem fits_iff_sq (ha : 0 ≤ a) :
    Fits a p x ↔ ((1 + a) * x - (p + a / 2)) ^ 2 ≤ a * (p * (1 - p)) + (a / 2) ^ 2 := by
  have hscale : 0 < 1 + a := by linarith
  rw [Fits, ← sub_nonneg, ← sub_nonneg (b := ((1 + a) * x - (p + a / 2)) ^ 2), complete_square]
  exact (mul_nonneg_iff_of_pos_left hscale).symm

/-- **WHAT FITS IS AN INTERVAL**, from the lower to the upper end. -/
theorem fits_iff (ha : 0 ≤ a) (hp : 0 ≤ p) (hp1 : p ≤ 1) :
    Fits a p x ↔ lowerEnd a p ≤ x ∧ x ≤ upperEnd a p := by
  have hscale : 0 < 1 + a := by linarith
  rw [fits_iff_sq ha, Real.sq_le (radicand_nonneg ha hp hp1), ← spread, lowerEnd, upperEnd,
    div_le_iff₀' hscale, le_div_iff₀' hscale]
  constructor
  · rintro ⟨hlow, hhigh⟩
    exact ⟨by linarith, by linarith⟩
  · rintro ⟨hlow, hhigh⟩
    exact ⟨by linarith, by linarith⟩

/-- What fits strictly lies strictly above the lower end. -/
theorem lowerEnd_lt_of_strict (ha : 0 ≤ a) (h : (x - p) ^ 2 < a * (x * (1 - x))) :
    lowerEnd a p < x := by
  have hscale : 0 < 1 + a := by linarith
  have hsq : ((1 + a) * x - (p + a / 2)) ^ 2 < a * (p * (1 - p)) + (a / 2) ^ 2 := by
    rw [← sub_pos, complete_square]
    exact mul_pos hscale (sub_pos.mpr h)
  have hlow := Real.neg_sqrt_lt_of_sq_lt hsq
  rw [← spread] at hlow
  rw [lowerEnd, div_lt_iff₀' hscale]
  linarith

/-- The lower end fits, and nothing is left over. -/
theorem lowerEnd_fits (ha : 0 ≤ a) (hp : 0 ≤ p) (hp1 : p ≤ 1) :
    (lowerEnd a p - p) ^ 2 = a * (lowerEnd a p * (1 - lowerEnd a p)) := by
  have hscale : 0 < 1 + a := by linarith
  have hcentre : (1 + a) * lowerEnd a p - (p + a / 2) = -spread a p := by
    rw [lowerEnd, mul_div_cancel₀ _ hscale.ne']
    ring
  have hzero := complete_square a p (lowerEnd a p)
  rw [hcentre, neg_sq, sq_spread ha hp hp1, sub_self, eq_comm, mul_eq_zero] at hzero
  exact (sub_eq_zero.mp (hzero.resolve_left hscale.ne')).symm

/-! ## Where the lower end lies -/

theorem half_le_spread (ha : 0 ≤ a) (hp : 0 ≤ p) (hp1 : p ≤ 1) : a / 2 ≤ spread a p := by
  refine Real.le_sqrt_of_sq_le ?_
  exact le_add_of_nonneg_left (mul_nonneg ha (mul_nonneg hp (sub_nonneg.mpr hp1)))

theorem spread_le (ha : 0 ≤ a) (hp : 0 ≤ p) : spread a p ≤ p + a / 2 := by
  refine Real.sqrt_le_iff.mpr ⟨by linarith, ?_⟩
  have hsquares : (p + a / 2) ^ 2 - (a * (p * (1 - p)) + (a / 2) ^ 2) = (1 + a) * p ^ 2 := by ring
  have hnonneg : 0 ≤ (1 + a) * p ^ 2 := mul_nonneg (by linarith) (sq_nonneg p)
  linarith

theorem lowerEnd_nonneg (ha : 0 ≤ a) (hp : 0 ≤ p) : 0 ≤ lowerEnd a p :=
  div_nonneg (sub_nonneg.mpr (spread_le ha hp)) (by linarith)

/-- The lower end is at most the rate scaled down, which it reaches at the rates
    zero and one. -/
theorem lowerEnd_le_div (ha : 0 ≤ a) (hp : 0 ≤ p) (hp1 : p ≤ 1) :
    lowerEnd a p ≤ p / (1 + a) := by
  have hspread := half_le_spread ha hp hp1
  exact div_le_div_of_nonneg_right (by linarith) (by linarith)

/-- **BELOW THE RATE**, strictly unless the rate is zero. -/
theorem lowerEnd_lt (ha : 0 < a) (hp : 0 < p) (hp1 : p ≤ 1) : lowerEnd a p < p :=
  (lowerEnd_le_div ha.le hp.le hp1).trans_lt (div_lt_self hp (by linarith))

theorem lowerEnd_le (ha : 0 ≤ a) (hp : 0 ≤ p) (hp1 : p ≤ 1) : lowerEnd a p ≤ p :=
  (lowerEnd_le_div ha hp hp1).trans (div_le_self hp (by linarith))

/-- A rate above zero keeps the lower end above zero: zero does not fit it. -/
theorem lowerEnd_pos (ha : 0 ≤ a) (hp : 0 < p) (hp1 : p ≤ 1) : 0 < lowerEnd a p := by
  refine lt_of_le_of_ne (lowerEnd_nonneg ha hp.le) fun hzero => ?_
  have hfits := lowerEnd_fits ha hp.le hp1
  rw [← hzero] at hfits
  have hsq : p ^ 2 = 0 := by linarith
  exact hp.ne' (pow_eq_zero_iff two_ne_zero |>.mp hsq)

theorem lowerEnd_lt_one (ha : 0 < a) (hp : 0 ≤ p) (hp1 : p ≤ 1) : lowerEnd a p < 1 := by
  refine (lowerEnd_le_div ha.le hp hp1).trans_lt ?_
  rw [div_lt_one (by linarith)]
  linarith

/-! ## How the lower end moves -/

/-- **HIGHER RATES, HIGHER BOUNDS**: a proportion below both rates that fits the
    farther one fits the nearer one. -/
theorem lowerEnd_mono (ha : 0 ≤ a) (hp : 0 ≤ p) (hpq : p ≤ q) (hq1 : q ≤ 1) :
    lowerEnd a p ≤ lowerEnd a q := by
  have hp1 := hpq.trans hq1
  have hq := hp.trans hpq
  rcases le_total p (lowerEnd a q) with habove | hbelow
  · exact (lowerEnd_le ha hp hp1).trans habove
  · have hdistance : (lowerEnd a q - p) ^ 2 ≤ (lowerEnd a q - q) ^ 2 := by
      rw [sub_sq_comm _ p, sub_sq_comm _ q]
      exact pow_le_pow_left₀ (sub_nonneg.mpr hbelow) (by linarith) 2
    have hfits : Fits a p (lowerEnd a q) := hdistance.trans_eq (lowerEnd_fits ha hq hq1)
    exact ((fits_iff ha hp hp1).mp hfits).1

/-- **LARGER SAMPLES, HIGHER BOUNDS**: at a rate above zero the lower end falls
    strictly as `a` grows. -/
theorem lowerEnd_strictAnti (ha : 0 < a) (hab : a < b) (hp : 0 < p) (hp1 : p ≤ 1) :
    lowerEnd b p < lowerEnd a p := by
  have hvariance : 0 < lowerEnd a p * (1 - lowerEnd a p) :=
    mul_pos (lowerEnd_pos ha.le hp hp1) (sub_pos.mpr (lowerEnd_lt_one ha hp.le hp1))
  refine lowerEnd_lt_of_strict (ha.trans hab).le ?_
  rw [lowerEnd_fits ha.le hp.le hp1]
  exact mul_lt_mul_of_pos_right hab hvariance

end ScoreInterval
