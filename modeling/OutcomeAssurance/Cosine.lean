import Mathlib.Analysis.Real.Sqrt

/-! # Cosine similarity

    The cosine of two families of non-negative weights over a finite set of
    terms: it lies in the unit interval, vanishes exactly when the families
    share no term, and is one between a family and itself. -/

namespace Cosine

variable {ι : Type} {s : Finset ι} {f g : ι → ℝ}

/-- The cosine of the angle, and zero where one of the families vanishes. -/
noncomputable def cosine (s : Finset ι) (f g : ι → ℝ) : ℝ :=
  (∑ i ∈ s, f i * g i) / (√(∑ i ∈ s, f i * f i) * √(∑ i ∈ s, g i * g i))

theorem sum_mul_self_nonneg (s : Finset ι) (f : ι → ℝ) : 0 ≤ ∑ i ∈ s, f i * f i :=
  Finset.sum_nonneg fun i _ => mul_self_nonneg (f i)

theorem sum_mul_self_pos {i : ι} (hi : i ∈ s) (hf : f i ≠ 0) : 0 < ∑ j ∈ s, f j * f j :=
  Finset.sum_pos' (fun j _ => mul_self_nonneg (f j)) ⟨i, hi, mul_self_pos.mpr hf⟩

theorem cosine_nonneg (hf : ∀ i ∈ s, 0 ≤ f i) (hg : ∀ i ∈ s, 0 ≤ g i) : 0 ≤ cosine s f g :=
  div_nonneg (Finset.sum_nonneg fun i hi => mul_nonneg (hf i hi) (hg i hi))
    (mul_nonneg (Real.sqrt_nonneg _) (Real.sqrt_nonneg _))

/-- By the inequality of Cauchy and Schwarz. -/
theorem cosine_le_one (s : Finset ι) (f g : ι → ℝ) : cosine s f g ≤ 1 := by
  refine div_le_one_of_le₀ ?_ (mul_nonneg (Real.sqrt_nonneg _) (Real.sqrt_nonneg _))
  simp only [← sq]
  exact Real.sum_mul_le_sqrt_mul_sqrt s f g

/-- **NOTHING SHARED**: the cosine of non-negative families is zero exactly when
    no term has weight in both. -/
theorem cosine_eq_zero_iff (hf : ∀ i ∈ s, 0 ≤ f i) (hg : ∀ i ∈ s, 0 ≤ g i) :
    cosine s f g = 0 ↔ ∀ i ∈ s, f i = 0 ∨ g i = 0 := by
  constructor
  · intro hzero i hi
    by_contra hboth
    obtain ⟨hfi, hgi⟩ := not_or.mp hboth
    have hdot : 0 < ∑ j ∈ s, f j * g j := by
      refine Finset.sum_pos' (fun j hj => mul_nonneg (hf j hj) (hg j hj)) ⟨i, hi, ?_⟩
      exact mul_pos (lt_of_le_of_ne (hf i hi) (Ne.symm hfi))
        (lt_of_le_of_ne (hg i hi) (Ne.symm hgi))
    have hnorms : 0 < √(∑ j ∈ s, f j * f j) * √(∑ j ∈ s, g j * g j) :=
      mul_pos (Real.sqrt_pos.mpr (sum_mul_self_pos hi hfi))
        (Real.sqrt_pos.mpr (sum_mul_self_pos hi hgi))
    exact absurd hzero (div_pos hdot hnorms).ne'
  · intro hnone
    have hdot : ∑ i ∈ s, f i * g i = 0 :=
      Finset.sum_eq_zero fun i hi => mul_eq_zero.mpr (hnone i hi)
    rw [cosine, hdot, zero_div]

theorem cosine_self {i : ι} (hi : i ∈ s) (hf : f i ≠ 0) : cosine s f f = 1 := by
  have hpos := sum_mul_self_pos hi hf
  rw [cosine, Real.mul_self_sqrt hpos.le, div_self hpos.ne']

end Cosine
