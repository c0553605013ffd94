import RevenueOps.ExactMat3
import RevenueOps.PolynomialSampling
import RevenueOps.ThompsonExact

/-! The regression of the posterior over exact numbers. From the default prior and any admissible
history, the normal equations keep the prior's ridge, so that they are solved and sampled, also
after a discount. -/
namespace Thompson

open Arithmetic Mat3 Matrix RegularizedMatrix

noncomputable section

section Equations

variable {s : GaussianThompsonState ℝ} {now : ℤ}

def fitFees (s : GaussianThompsonState ℝ) (now : ℤ) : List ℝ :=
  (weightedObs s now).map WeightedObs.fee

def fitRange (s : GaussianThompsonState ℝ) (now : ℤ) : ℝ :=
  maxOf (fitFees s now) - minOf (fitFees s now)

def normalEquations (s : GaussianThompsonState ℝ) (now : ℤ) : M3 ℝ × V3 ℝ :=
  (weightedObs s now).foldl
    (accumulate (minOf (fitFees s now)) (1.0 / fitRange s now) (1.0 / max 10.0 s.noiseVariance))
    (s.priorPrecision, matvec3 s.priorPrecision s.priorCoeffs)

/-- The default precision of the prior, and a bounded history of fees, revenues and weights that a
channel can have. -/
structure Admissible (s : GaussianThompsonState ℝ) (now : ℤ) : Prop where
  prior : s.priorPrecision = GaussianThompsonState.default.priorPrecision
  noise : 10 ≤ s.noiseVariance
  length : s.observations.length ≤ 200
  observed : ∀ o ∈ s.observations,
    0 ≤ o.fee ∧ 0 ≤ o.revenueRate ∧ 0 < o.weight ∧ o.weight ≤ 1 ∧ o.ts ≤ now

structure ReachesRegression (s : GaussianThompsonState ℝ) (now : ℤ) : Prop where
  observed : s.observations ≠ []
  noAnchor : regimeAnchor (trackChargedFee (floatTags s) (weightedObs s now)) now
    (weightedObs s now) (anchorPool s now) = none
  enough : 3 ≤ (weightedObs s now).length
  wide : 5 ≤ fitRange s now

theorem halfLife_le_one {hours period : ℝ} (h : 0 ≤ hours) (hp : 0 ≤ period) :
    halfLife hours period ≤ 1 :=
  Real.rpow_le_one (by norm_num) (by norm_num) (div_nonneg h hp)

theorem Admissible.weight (h : Admissible s now) {w : WeightedObs ℝ} (hw : w ∈ weightedObs s now) :
    0 < w.weight ∧ w.weight ≤ 1 := by
  obtain ⟨p, hp, rfl⟩ := List.mem_map.mp hw
  have hliving := List.mem_of_mem_filter hp
  obtain ⟨hmem, hpos⟩ := livingObs_mem hliving
  refine ⟨hpos, ?_⟩
  obtain ⟨o, ho, rfl⟩ := List.mem_map.mp (List.mem_of_mem_filter hliving)
  obtain ⟨-, -, hweight, hone, hts⟩ := h.observed o ho
  have hage : (0 : ℝ) ≤ hoursBetween now o.ts := by
    have hgap : (0 : ℝ) ≤ ((now - o.ts : ℤ) : ℝ) := by
      exact_mod_cast sub_nonneg.mpr hts
    rw [hoursBetween, ofInt_exact]
    exact div_nonneg hgap (by norm_num)
  have hfade : halfLife (hoursBetween now o.ts) decayHours ≤ (1 : ℝ) :=
    halfLife_le_one hage (by norm_num [decayHours])
  calc o.weight * halfLife (hoursBetween now o.ts) decayHours ≤ 1 * 1 :=
        mul_le_mul hone hfade (halfLife_pos _ _).le (by norm_num)
    _ = 1 := one_mul 1

theorem weightedObs_length (s : GaussianThompsonState ℝ) (now : ℤ) :
    (weightedObs s now).length ≤ s.observations.length := by
  rw [weightedObs, List.length_map]
  apply (List.length_filter_le _ _).trans
  rw [livingObs]
  apply (List.length_filter_le _ _).trans
  rw [List.length_map]

end Equations

section Ridge

variable {s : GaussianThompsonState ℝ} {now : ℤ} {c t feeMin invRange invSigma2 : ℝ}

theorem accumulate_regularized {acc : M3 ℝ × V3 ℝ} (h : Regularized c t (of acc.1))
    {o : WeightedObs ℝ} (hweight : 0 < o.weight ∧ o.weight ≤ 1)
    (hsigma : 0 < invSigma2 ∧ invSigma2 ≤ 1 / 10) (hlo : 0 ≤ (o.fee - feeMin) * invRange)
    (hhi : (o.fee - feeMin) * invRange ≤ 1) :
    Regularized c (t + 3 / 10) (of (accumulate feeMin invRange invSigma2 acc o).1) := by
  set f := (o.fee - feeMin) * invRange with hf
  have hw : 0 ≤ o.weight * invSigma2 := (mul_pos hweight.1 hsigma.1).le
  have hwle : o.weight * invSigma2 ≤ 1 * (1 / 10) :=
    mul_le_mul hweight.2 hsigma.2 hsigma.1.le (by norm_num)
  have hsum : of (accumulate feeMin invRange invSigma2 acc o).1 =
      of acc.1 + (o.weight * invSigma2) • vecMulVec ![f * f, f, 1] ![f * f, f, 1] := by
    ext i j
    simp only [accumulate, of_apply, Matrix.add_apply, Matrix.smul_apply, vecMulVec_apply,
      smul_eq_mul, one_literal, ← hf]
    ring
  rw [hsum]
  apply h.add_rankOne hw
  simp only [cons_val]
  have hf2 : f * f ≤ 1 := by nlinarith
  have hf4 : (f * f) ^ 2 ≤ 1 := by nlinarith [mul_self_nonneg f]
  have hnorm : (f * f) ^ 2 + f ^ 2 + 1 ^ 2 ≤ 3 := by nlinarith
  nlinarith

/-- The normal equations of a list of observations: the trace grows with its length. -/
theorem foldl_regularized {wobs : List (WeightedObs ℝ)}
    (hsigma : 0 < invSigma2 ∧ invSigma2 ≤ 1 / 10)
    (hobs : ∀ o ∈ wobs, (0 < o.weight ∧ o.weight ≤ 1) ∧ 0 ≤ (o.fee - feeMin) * invRange ∧
      (o.fee - feeMin) * invRange ≤ 1) {acc : M3 ℝ × V3 ℝ} (h : Regularized c t (of acc.1)) :
    Regularized c (t + 3 / 10 * wobs.length)
      (of (wobs.foldl (accumulate feeMin invRange invSigma2) acc).1) := by
  induction wobs generalizing acc t with
  | nil =>
    rw [List.length_nil, Nat.cast_zero, mul_zero, add_zero]
    exact h
  | cons o wobs ih =>
    obtain ⟨hweight, hlo, hhi⟩ := hobs o (by simp)
    have hstep := accumulate_regularized h hweight hsigma hlo hhi
    have hrest := ih (fun o' ho' => hobs o' (List.mem_cons_of_mem _ ho')) hstep
    have hlength : t + 3 / 10 * ((o :: wobs).length : ℝ) = t + 3 / 10 + 3 / 10 * wobs.length := by
      rw [List.length_cons]
      push_cast
      ring
    rw [List.foldl_cons, hlength]
    exact hrest

theorem defaultPrecision_eq :
    of (GaussianThompsonState.default : GaussianThompsonState ℝ).priorPrecision =
      (1 / 100 : ℝ) • (1 : Mat) := by
  rw [one_fin_three]
  ext i j
  fin_cases i <;> fin_cases j <;> norm_num [GaussianThompsonState.default]

theorem ReachesRegression.normalized (hr : ReachesRegression s now) {w : WeightedObs ℝ}
    (hw : w ∈ weightedObs s now) :
    0 ≤ (w.fee - minOf (fitFees s now)) * (1.0 / fitRange s now) ∧
      (w.fee - minOf (fitFees s now)) * (1.0 / fitRange s now) ≤ 1 := by
  have hmem : w.fee ∈ fitFees s now := List.mem_map.mpr ⟨w, hw, rfl⟩
  have hlo := minOf_le hmem
  have hhi := le_maxOf hmem
  have hpos : 0 < fitRange s now := by linarith [hr.wide]
  rw [one_literal, mul_one_div]
  constructor
  · exact div_nonneg (by linarith) hpos.le
  · rw [div_le_one hpos, fitRange]
    linarith

theorem normalEquations_regularized (h : Admissible s now) (hr : ReachesRegression s now) :
    Regularized (1 / 100) 61 (of (normalEquations s now).1) := by
  have hmax : (10 : ℝ) ≤ max 10.0 s.noiseVariance := by
    apply le_max_of_le_left
    norm_num
  have hsigma : 0 < 1.0 / max 10.0 s.noiseVariance ∧ 1.0 / max 10.0 s.noiseVariance ≤ 1 / 10 := by
    rw [one_literal]
    exact ⟨one_div_pos.mpr (by linarith), one_div_le_one_div_of_le (by norm_num) hmax⟩
  have hprior := regularized_ridge (1 / 100)
  rw [← defaultPrecision_eq, ← h.prior] at hprior
  have hrun : Regularized (1 / 100) (3 * (1 / 100) + 3 / 10 * (weightedObs s now).length)
      (of (normalEquations s now).1) :=
    foldl_regularized hsigma (fun o ho => ⟨h.weight ho, hr.normalized ho⟩) hprior
  refine ⟨hrun.excess, hrun.trace.trans ?_⟩
  have hlength : ((weightedObs s now).length : ℝ) ≤ 200 := by
    exact_mod_cast (weightedObs_length s now).trans h.length
  linarith

end Ridge

section Fit

variable {s : GaussianThompsonState ℝ} {now : ℤ}

theorem recompute_regression (hr : ReachesRegression s now) {sigma : M3 ℝ}
    (hsigma : invert3 (normalEquations s now).1 = some sigma) :
    (recomputePosteriorCore s now).posteriorCoeffs = matvec3 sigma (normalEquations s now).2 ∧
      (recomputePosteriorCore s now).posteriorPrecision = (normalEquations s now).1 ∧
      (recomputePosteriorCore s now).lastFeeMax - (recomputePosteriorCore s now).lastFeeMin =
        fitRange s now := by
  have hobserved : ¬(floatTags s).observations.isEmpty = true := by
    rw [List.isEmpty_iff]
    exact hr.observed
  have hcore : recomputePosteriorCore s now =
      fitPosterior (trackChargedFee (floatTags s) (weightedObs s now)) (weightedObs s now) now := by
    have hwobs : weightedObs (floatTags s) now = weightedObs s now := rfl
    have hpool : anchorPool (floatTags s) now = anchorPool s now := rfl
    rw [recomputePosteriorCore]
    simp only [if_neg hobserved, hwobs, hpool, hr.noAnchor]
  have hprior : (trackChargedFee (floatTags s) (weightedObs s now)).priorPrecision =
        s.priorPrecision ∧
      (trackChargedFee (floatTags s) (weightedObs s now)).priorCoeffs = s.priorCoeffs ∧
      (trackChargedFee (floatTags s) (weightedObs s now)).noiseVariance = s.noiseVariance := by
    rw [trackChargedFee]
    split <;> exact ⟨rfl, rfl, rfl⟩
  have hmany : ¬(weightedObs s now).length < 3 := not_lt.mpr hr.enough
  have hwide : ¬maxOf ((weightedObs s now).map WeightedObs.fee) -
      minOf ((weightedObs s now).map WeightedObs.fee) < 5.0 := by
    norm_num
    exact hr.wide
  rw [normalEquations, fitRange, fitFees] at hsigma ⊢
  rw [hcore, fitPosterior]
  simp only [if_neg hmany, if_neg hwide, hprior, max_exact, hsigma, and_self]

theorem applyDtsDiscount_precision {gamma : ℝ} (h0 : 0 < gamma) (h1 : gamma < 1) :
    of (applyDtsDiscount s gamma).posteriorPrecision = gamma • of s.posteriorPrecision := by
  have hinside : ¬((!(decide ((0.0 : ℝ) < gamma) && decide (gamma < (1.0 : ℝ)))) = true) := by
    rw [zero_literal, one_literal]
    simp [h0, h1]
  rw [applyDtsDiscount, if_neg hinside]
  ext i j
  simp only [of_apply, Matrix.smul_apply, smul_eq_mul]
  ring

theorem applyDtsDiscount_range (s : GaussianThompsonState ℝ) (gamma : ℝ) :
    (applyDtsDiscount s gamma).lastFeeMax - (applyDtsDiscount s gamma).lastFeeMin =
      s.lastFeeMax - s.lastFeeMin := by
  rw [applyDtsDiscount]
  split <;> rfl

end Fit

section Sampling

variable {M : Type → Type} [Monad M] {s t : GaussianThompsonState ℝ} {now : ℤ} {c b : ℝ}

structure Samplable (gaussI64 : Gauss M ℝ) (noiseScale : ℝ) (t : GaussianThompsonState ℝ)
    (sigma l : M3 ℝ) : Prop where
  inverts : invert3 t.posteriorPrecision = some sigma
  inverse : of t.posteriorPrecision * of sigma = 1
  factors : cholesky3 sigma = some l
  product : of l * (of l)ᵀ = of sigma
  draws : sampleFromPolynomialPosterior gaussI64 t noiseScale =
    drawVertex gaussI64 t noiseScale (factorSample t l)

theorem samplable_of_regularized (gaussI64 : Gauss M ℝ) (noiseScale : ℝ)
    (h : Regularized c b (of t.posteriorPrecision)) (hlo : 1 / 200 ≤ c) (hb : b ≤ 61)
    (hwide : 5 ≤ t.lastFeeMax - t.lastFeeMin) :
    ∃ sigma l, Samplable gaussI64 noiseScale t sigma l := by
  have hc : 0 < c := by linarith
  obtain ⟨sigma, hsigma⟩ := invert3_of_regularized h hlo hb
  obtain ⟨l, hl, hproduct⟩ := cholesky3_of_regularized h hc hb hsigma
  have hrange : ¬t.lastFeeMax - t.lastFeeMin < 5.0 := by
    norm_num
    exact hwide
  refine ⟨sigma, l, hsigma, invert3_mul hsigma, hl, hproduct, ?_⟩
  rw [sampleFromPolynomialPosterior, if_neg hrange]
  simp only [hsigma, hl]

/-- Whenever the rebuild reaches its regression, the normal equations are solved, the precision is
positive definite, and the posterior is sampled through its factor, before and after one
discount. -/
theorem regression_solvable_and_samplable (gaussI64 : Gauss M ℝ) (noiseScale : ℝ)
    (h : Admissible s now) (hr : ReachesRegression s now) :
    (∃ sigma, invert3 (normalEquations s now).1 = some sigma ∧
      of (normalEquations s now).1 * of sigma = 1) ∧
    matvec3 (normalEquations s now).1 (recomputePosteriorCore s now).posteriorCoeffs =
      (normalEquations s now).2 ∧
    (recomputePosteriorCore s now).posteriorPrecision = (normalEquations s now).1 ∧
    (of (recomputePosteriorCore s now).posteriorPrecision).PosDef ∧
    ∀ t, (t = recomputePosteriorCore s now ∨ ∃ gamma, 1 / 2 ≤ gamma ∧ gamma < 1 ∧
        t = applyDtsDiscount (recomputePosteriorCore s now) gamma) →
      ∃ sigma l, Samplable gaussI64 noiseScale t sigma l := by
  have hridge := normalEquations_regularized h hr
  obtain ⟨sigma, hsigma⟩ := invert3_of_regularized hridge (by norm_num) le_rfl
  obtain ⟨hcoeffs, hprecision, hrange⟩ := recompute_regression hr hsigma
  have hinverse := invert3_mul hsigma
  refine ⟨⟨sigma, hsigma, hinverse⟩, ?_, hprecision, ?_, ?_⟩
  · rw [hcoeffs, matvec3_eq, matvec3_eq, mulVec_mulVec, hinverse, one_mulVec]
  · rw [hprecision]
    exact hridge.posDef (by norm_num)
  · rintro t (rfl | ⟨gamma, hlo, hhi, rfl⟩)
    · apply samplable_of_regularized gaussI64 noiseScale (hprecision ▸ hridge) (by norm_num) le_rfl
      rw [hrange]
      exact hr.wide
    · have hgamma : 0 < gamma := by linarith
      have hdiscounted := hridge.smul hgamma.le
      rw [← hprecision, ← applyDtsDiscount_precision hgamma hhi] at hdiscounted
      apply samplable_of_regularized gaussI64 noiseScale hdiscounted
      · linarith
      · linarith
      · rw [applyDtsDiscount_range, hrange]
        exact hr.wide

def threeWindows : GaussianThompsonState ℝ :=
  { GaussianThompsonState.default with
    observations := [.new 100 50 1 0 "day", .new 200 60 1 0 "day", .new 300 40 1 0 "day"] }

theorem threeWindows_weighted : weightedObs threeWindows 0 =
    [⟨100, 50, 1⟩, ⟨200, 60, 1⟩, ⟨300, 40, 1⟩] := by
  have hfresh : halfLife (hoursBetween 0 0) decayHours = (1 : ℝ) := by
    norm_num [halfLife, hoursBetween]
  have hheavy : ¬(1 : ℝ) < 1e-6 := by norm_num
  simp only [weightedObs, livingObs, threeWindows, decayedWeight, Observation.new, hfresh, mul_one,
    List.map_cons, List.map_nil, List.filter_cons, List.filter_nil, hheavy, decide_false,
    Bool.not_false, if_true, reduceCtorEq]

theorem threeWindows_noAnchor (pool : List (AnchorObs ℝ)) :
    regimeAnchor (trackChargedFee (floatTags threeWindows) (weightedObs threeWindows 0)) 0
      (weightedObs threeWindows 0) pool = none := by
  have hstreak : streakOverride
      (trackChargedFee (floatTags threeWindows) (weightedObs threeWindows 0)) = false := by
    rw [trackChargedFee]
    split <;> rfl
  have hmass : ¬pySum ((weightedObs threeWindows 0).map fun o => o.revenue * o.weight) ≤ 1e-9 := by
    rw [pySum_exact, threeWindows_weighted]
    norm_num
  rw [regimeAnchor]
  simp only [hmass, hstreak, decide_false, Bool.or_false, Bool.and_false, Bool.false_eq_true,
    if_false]

theorem threeWindows_samplable :
    (of (recomputePosteriorCore threeWindows 0).posteriorPrecision).PosDef ∧
      ∃ sigma l, Samplable (fun _ _ _ => pure 0 : Gauss Id ℝ) 1
        (applyDtsDiscount (recomputePosteriorCore threeWindows 0) (1 / 2)) sigma l := by
  have hadmissible : Admissible threeWindows 0 := by
    refine ⟨rfl, ?_, ?_, ?_⟩
    · norm_num [threeWindows, GaussianThompsonState.default]
    · simp [threeWindows]
    · intro o ho
      simp only [threeWindows, List.mem_cons, List.not_mem_nil, or_false] at ho
      rcases ho with rfl | rfl | rfl <;> norm_num [Observation.new]
  have hreaches : ReachesRegression threeWindows 0 := by
    refine ⟨by simp [threeWindows], threeWindows_noAnchor _, ?_, ?_⟩
    · rw [threeWindows_weighted]
      decide
    · rw [fitRange, fitFees, threeWindows_weighted]
      norm_num [maxOf, minOf]
  have h := regression_solvable_and_samplable (fun _ _ _ => pure 0 : Gauss Id ℝ) 1 hadmissible
    hreaches
  exact ⟨h.2.2.2.1, h.2.2.2.2 _ (.inr ⟨1 / 2, le_rfl, by norm_num, rfl⟩)⟩

end Sampling

end

end Thompson
