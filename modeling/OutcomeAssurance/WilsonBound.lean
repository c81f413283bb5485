import Mathlib.Tactic.FieldSimp
import OutcomeAssurance.ReleaseGate
import OutcomeAssurance.Relevance
import OutcomeAssurance.ScoreInterval

/-! # The Wilson bound

    `wilson_lower_bound` over the reals, and the bound an evaluation reports beside
    its critical recall.  Nothing fails and the clamp at zero never acts: the bound
    is the lower end of the score interval. -/

namespace WilsonBound

open CaseModel PyRuntime Evaluation ReleaseGate Relevance ScoreInterval

/-! ## Over the reals -/

variable {R : Type}

/-- The arithmetic that fails where Python raises. -/
noncomputable def checkedArithmetic : Arithmetic (Option ℝ) where
  toNumerics := checkedReals
  sub := Option.map₂ (· - ·)
  pow x k := x.map (· ^ k)
  max := Option.map₂ max

variable {z : ℝ} {s s' n n' : ℕ}

theorem cast_ne_zero_of_one_le (hn : 1 ≤ n) : (n : ℝ) ≠ 0 :=
  Nat.cast_ne_zero.mpr (Nat.one_le_iff_ne_zero.mp hn)

/-- A division by a positive count does not fail. -/
theorem divCount_checked (x : ℝ) (hn : 1 ≤ n) :
    checkedArithmetic.div (some x) (checkedArithmetic.ofNat n) = some (x / n) :=
  div_checked (cast_ne_zero_of_one_le hn)

theorem observedRate_checked (s : ℕ) (hn : 1 ≤ n) :
    observedRate checkedArithmetic s n = some (s / n : ℝ) :=
  divCount_checked s hn

theorem radicand_checked (p z : ℝ) (hn : 1 ≤ n) :
    radicand checkedArithmetic (some p) n (some z)
      = some ((p * (1 - p) + z ^ 2 / (4 * n)) / n) := by
  have hvariance : checkedArithmetic.mul (some p)
      (checkedArithmetic.sub (checkedArithmetic.ofNat 1) (some p)) = some (p * (1 - p)) := by
    show some (p * ((1 : ℕ) - p)) = _
    rw [Nat.cast_one]
  have hquarter : checkedArithmetic.div (checkedArithmetic.pow (some z) 2)
      (checkedArithmetic.ofNat (4 * n)) = some (z ^ 2 / (4 * n)) := by
    refine (divCount_checked (z ^ 2) (by omega)).trans ?_
    rw [Nat.cast_mul, Nat.cast_ofNat]
  rw [radicand, hvariance, hquarter]
  exact divCount_checked _ hn

/-- No more successes than attempts: the rate is a proportion. -/
theorem rate_le_one (hs : s ≤ n) : (s / n : ℝ) ≤ 1 :=
  div_le_one_of_le₀ (Nat.cast_le.mpr hs) (Nat.cast_nonneg n)

theorem rate_nonneg (s n : ℕ) : 0 ≤ (s / n : ℝ) :=
  div_nonneg (Nat.cast_nonneg s) (Nat.cast_nonneg n)

theorem argument_nonneg (z : ℝ) (hs : s ≤ n) :
    0 ≤ ((s / n : ℝ) * (1 - s / n) + z ^ 2 / (4 * n)) / n := by
  have hvariance := mul_nonneg (rate_nonneg s n) (sub_nonneg.mpr (rate_le_one hs))
  positivity

/-- The margin is the spread of the score interval. -/
theorem margin_eq (hz : 0 ≤ z) (p : ℝ) (hn : 1 ≤ n) :
    z * √((p * (1 - p) + z ^ 2 / (4 * n)) / n) = spread (z ^ 2 / n) p := by
  have hsize := cast_ne_zero_of_one_le hn
  have hsquare : z ^ 2 * ((p * (1 - p) + z ^ 2 / (4 * n)) / n)
      = z ^ 2 / n * (p * (1 - p)) + (z ^ 2 / n / 2) ^ 2 := by
    field_simp
    ring
  rw [spread, ← hsquare, Real.sqrt_mul (sq_nonneg z), Real.sqrt_sq hz]

theorem denom_checked (z : ℝ) (hn : 1 ≤ n) :
    checkedArithmetic.add (checkedArithmetic.ofNat 1)
        (checkedArithmetic.div (checkedArithmetic.pow (some z) 2) (checkedArithmetic.ofNat n))
      = some (1 + z ^ 2 / n) := by
  have hratio : checkedArithmetic.div (checkedArithmetic.pow (some z) 2)
      (checkedArithmetic.ofNat n) = some (z ^ 2 / n) := divCount_checked (z ^ 2) hn
  rw [hratio]
  show some (((1 : ℕ) : ℝ) + z ^ 2 / n) = _
  rw [Nat.cast_one]

theorem centre_checked (p z : ℝ) (hn : 1 ≤ n) :
    checkedArithmetic.add (some p) (checkedArithmetic.div (checkedArithmetic.pow (some z) 2)
        (checkedArithmetic.ofNat (2 * n)))
      = some (p + z ^ 2 / n / 2) := by
  have hhalf : checkedArithmetic.div (checkedArithmetic.pow (some z) 2)
      (checkedArithmetic.ofNat (2 * n)) = some (z ^ 2 / n / 2) := by
    refine (divCount_checked (z ^ 2) (by omega)).trans ?_
    rw [Nat.cast_mul, Nat.cast_ofNat, mul_comm, div_div]
  rw [hhalf]
  rfl

theorem margin_checked (hz : 0 ≤ z) (hn : 1 ≤ n) (hs : s ≤ n) :
    checkedArithmetic.mul (some z)
        (checkedArithmetic.sqrt (radicand checkedArithmetic (some (s / n)) n (some z)))
      = some (spread (z ^ 2 / n) (s / n)) := by
  have hroot := sqrt_checked (argument_nonneg z hs)
  rw [radicand_checked _ z hn]
  refine (congrArg (checkedArithmetic.mul (some z)) hroot).trans ?_
  exact congrArg some (margin_eq hz _ hn)

/-- **NOTHING FAILS**: over the reals the bound is the lower end of the score
    interval. -/
theorem wilson_checked (hz : 0 ≤ z) (hn : 1 ≤ n) (hs : s ≤ n) :
    wilsonLowerBound checkedArithmetic s n (some z)
      = some (lowerEnd (z ^ 2 / n) (s / n)) := by
  have hratio : 0 ≤ z ^ 2 / n := by positivity
  have hdenom : 1 + z ^ 2 / (n : ℝ) ≠ 0 := by positivity
  rw [wilsonLowerBound, if_neg (Nat.one_le_iff_ne_zero.mp hn), observedRate_checked s hn]
  dsimp only
  rw [denom_checked z hn, centre_checked _ z hn, margin_checked hz hn hs]
  show Option.map₂ max (some ((0 : ℕ) : ℝ)) (checkedReals.div
    (some (s / n + z ^ 2 / n / 2 - spread (z ^ 2 / n) (s / n))) (some (1 + z ^ 2 / n))) = _
  rw [div_checked hdenom]
  show some (max ((0 : ℕ) : ℝ) (lowerEnd (z ^ 2 / n) (s / n))) = _
  rw [Nat.cast_zero, max_eq_right (lowerEnd_nonneg hratio (rate_nonneg s n))]

/-- **WHAT THE BOUND IS FOR**: it is the least proportion the score test does not
    tell from the observed rate. -/
theorem wilson_isLeast (hz : 0 ≤ z) (hn : 1 ≤ n) (hs : s ≤ n) :
    ∃ x, wilsonLowerBound checkedArithmetic s n (some z) = some x ∧
      IsLeast {y | (y - s / n) ^ 2 ≤ z ^ 2 / n * (y * (1 - y))} x := by
  have hratio : 0 ≤ z ^ 2 / n := by positivity
  refine ⟨_, wilson_checked hz hn hs,
    (lowerEnd_fits hratio (rate_nonneg s n) (rate_le_one hs)).le, ?_⟩
  intro y hy
  exact ((fits_iff hratio (rate_nonneg s n) (rate_le_one hs)).mp hy).1

/-! ## Never an overstatement -/

theorem ratio_pos (hz : 0 < z) (hn : 1 ≤ n) : 0 < z ^ 2 / (n : ℝ) :=
  div_pos (pow_pos hz 2) (Nat.cast_pos.mpr hn)

/-- At the same rate above zero, a larger sample has the higher bound. -/
theorem lowerEnd_lt_of_size {p : ℝ} (hz : 0 < z) (hn : 1 ≤ n) (h : n < n') (hp : 0 < p)
    (hp1 : p ≤ 1) : lowerEnd (z ^ 2 / n) p < lowerEnd (z ^ 2 / n') p := by
  refine lowerEnd_strictAnti (ratio_pos hz (hn.trans h.le)) ?_ hp hp1
  exact div_lt_div_of_pos_left (pow_pos hz 2) (Nat.cast_pos.mpr hn) (Nat.cast_lt.mpr h)

/-- What the bound of `s` successes among `n` is to be. -/
structure NeverOverstates (s n : ℕ) (z x : ℝ) : Prop where
  /-- Nothing fails, and the bound is this number. -/
  computed : wilsonLowerBound checkedArithmetic s n (some z) = some x
  /-- The square root is taken of a non-negative number. -/
  rooted : ∃ v, radicand checkedArithmetic (observedRate checkedArithmetic s n) n (some z)
    = some v ∧ 0 ≤ v
  nonneg : 0 ≤ x
  le_rate : x ≤ s / n
  lt_rate : 0 < s → x < s / n
  lt_one : x < 1
  /-- No number of fewer successes has a higher bound. -/
  mono : ∀ s' ≤ s, ∃ x', wilsonLowerBound checkedArithmetic s' n (some z) = some x' ∧ x' ≤ x
  /-- A larger sample without failures has a higher bound. -/
  perfect : s = n → ∀ n' > n,
    ∃ x', wilsonLowerBound checkedArithmetic n' n' (some z) = some x' ∧ x < x'

/-- **THE BOUND NEVER OVERSTATES**, for any quantile, sample and number of
    successes. -/
theorem wilson_never_overstates (hz : 0 < z) (hn : 1 ≤ n) (hs : s ≤ n) :
    ∃ x, NeverOverstates s n z x := by
  have hratio := ratio_pos hz hn
  have hrate := rate_nonneg s n
  have hrate1 := rate_le_one hs
  refine ⟨lowerEnd (z ^ 2 / n) (s / n),
    { computed := wilson_checked hz.le hn hs
      rooted := ⟨_, ?_, argument_nonneg z hs⟩
      nonneg := lowerEnd_nonneg hratio.le hrate
      le_rate := lowerEnd_le hratio.le hrate hrate1
      lt_rate := ?_
      lt_one := lowerEnd_lt_one hratio hrate hrate1
      mono := ?_
      perfect := ?_ }⟩
  · rw [observedRate_checked s hn]
    exact radicand_checked _ z hn
  · intro hpos
    have hpositive : 0 < (s / n : ℝ) := div_pos (Nat.cast_pos.mpr hpos) (Nat.cast_pos.mpr hn)
    exact lowerEnd_lt hratio hpositive hrate1
  · intro s' hs'
    have hfewer : (s' / n : ℝ) ≤ s / n :=
      div_le_div_of_nonneg_right (Nat.cast_le.mpr hs') (Nat.cast_nonneg n)
    exact ⟨_, wilson_checked hz.le hn (hs'.trans hs),
      lowerEnd_mono hratio.le (rate_nonneg s' n) hfewer hrate1⟩
  · intro hall n' hn'
    subst hall
    have hone : (s / s : ℝ) = n' / n' := by
      rw [div_self (cast_ne_zero_of_one_le hn), div_self (cast_ne_zero_of_one_le (hn.trans hn'.le))]
    refine ⟨_, wilson_checked hz.le (hn.trans hn'.le) le_rfl, ?_⟩
    rw [← hone]
    exact lowerEnd_lt_of_size hz hn hn' (div_pos (Nat.cast_pos.mpr hn) (Nat.cast_pos.mpr hn)) hrate1

/-- Twenty-four successes out of twenty-four. -/
theorem perfect_sample_understated : ∃ x, NeverOverstates 24 24 1.96 x :=
  wilson_never_overstates (by norm_num) (by decide) le_rfl

/-! ## In an evaluation -/

theorem defaultZ_checked : defaultZ checkedArithmetic = some (196 / 100 : ℝ) :=
  div_checked (by norm_num)

/-- An evaluation recovers no more critical cases than it has. -/
theorem recovered_le_total {rt : Runtime R} {dataset : Dataset} {sources : List Source}
    {disabled : Bool} {m : Metrics R} (h : runEvaluation rt dataset sources disabled = .ok m) :
    m.criticalPositiveRecovered ≤ m.criticalPositiveTotal ∧
      m.criticalRecall = rate m.criticalPositiveRecovered m.criticalPositiveTotal := by
  obtain ⟨results, -, rfl⟩ := runEvaluation_eq_ok.mp h
  exact ⟨List.countP_le_length, rfl⟩

/-- **THE REPORTED BOUND** of every evaluation lies between zero and the critical
    recall reported beside it, and below that recall unless it is zero. -/
theorem reported_bound {rt : Runtime R} {dataset : Dataset} {sources : List Source}
    {disabled : Bool} {m : Metrics R} (h : runEvaluation rt dataset sources disabled = .ok m) :
    ∃ x, criticalRecallWilsonLowerBound95 checkedArithmetic m = some x ∧ 0 ≤ x ∧ x < 1 ∧
      x ≤ m.criticalRecall ∧ (0 < m.criticalRecall → x < m.criticalRecall) := by
  obtain ⟨hle, hrecall⟩ := recovered_le_total h
  rw [criticalRecallWilsonLowerBound95, defaultZ_checked, hrecall]
  generalize m.criticalPositiveRecovered = s at *
  generalize m.criticalPositiveTotal = n at *
  rcases Nat.eq_zero_or_pos n with rfl | hn
  · refine ⟨0, ?_, le_rfl, one_pos, ?_, ?_⟩
    · exact congrArg some Nat.cast_zero
    · rw [rate, if_pos rfl, Rat.cast_zero]
    · rw [rate, if_pos rfl]
      exact fun hpos => absurd hpos (lt_irrefl 0)
  · have hratio : 0 < (196 / 100 : ℝ) ^ 2 / n := ratio_pos (by norm_num) hn
    have hrate : ((rate s n : ℚ) : ℝ) = s / n := by
      rw [rate, if_neg hn.ne', Rat.cast_div, Rat.cast_natCast, Rat.cast_natCast]
    refine ⟨_, wilson_checked (by norm_num) hn hle, lowerEnd_nonneg hratio.le (rate_nonneg s n),
      lowerEnd_lt_one hratio (rate_nonneg s n) (rate_le_one hle), ?_, ?_⟩
    · rw [hrate]
      exact lowerEnd_le hratio.le (rate_nonneg s n) (rate_le_one hle)
    · intro hpos
      have hpositive : 0 < (s / n : ℝ) := by
        rw [← hrate]
        exact Rat.cast_pos.mpr hpos
      rw [hrate]
      exact lowerEnd_lt hratio hpositive (rate_le_one hle)

end WilsonBound
