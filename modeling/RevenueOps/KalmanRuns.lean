import Mathlib.Tactic.NormNum
import RevenueOps.Covariance
import RevenueOps.KalmanFlow
import RevenueOps.RealArithmetic

/-! The flow filter over exact numbers. Its covariance goes through the steps of a linear filter, so
it stays positive definite through any run, and the repair that would cut it is never needed. -/
namespace Kalman

open Arithmetic Covariance

noncomputable section

def KalmanFlowState.cov (s : KalmanFlowState ℝ) : Cov ℝ :=
  ⟨s.varianceRatio, s.varianceVelocity, s.covariance⟩

structure WellFormed (s : KalmanFlowState ℝ) : Prop where
  varianceRatio : 1e-4 ≤ s.varianceRatio
  varianceVelocity : 1e-4 ≤ s.varianceVelocity
  definite : s.covariance ^ 2 < s.varianceRatio * s.varianceVelocity
  ratioLow : -1 ≤ s.flowRatio
  ratioHigh : s.flowRatio ≤ 1
  velocityLow : minVelocity ≤ s.flowVelocity
  velocityHigh : s.flowVelocity ≤ maxVelocity

variable {s : KalmanFlowState ℝ} {kf : KalmanFlowFilter ℝ}

theorem WellFormed.posDef (h : WellFormed s) : PosDef s.cov := by
  refine ⟨lt_of_lt_of_le (by norm_num) h.varianceRatio, ?_⟩
  have hdef := h.definite
  simp only [Cov.det, KalmanFlowState.cov]
  linarith

section Bounds

variable {lo hi x : ℝ}

theorem bounded_ge : lo ≤ bounded lo hi x := le_max_left _ _

theorem bounded_le (h : lo ≤ hi) : bounded lo hi x ≤ hi := max_le h (min_le_left _ _)

theorem hasNan_exact (s : KalmanFlowState ℝ) : s.hasNan = false := rfl

theorem clampFlow_keeps (s : KalmanFlowState ℝ) :
    -1 ≤ s.clampFlow.flowRatio ∧ s.clampFlow.flowRatio ≤ 1 ∧
      minVelocity ≤ s.clampFlow.flowVelocity ∧ s.clampFlow.flowVelocity ≤ maxVelocity := by
  have hlow : (-1.0 : ℝ) ≤ 1.0 := by norm_num
  have hvel : (minVelocity : ℝ) ≤ maxVelocity := by norm_num [minVelocity, maxVelocity]
  have h1 : (-1.0 : ℝ) ≤ s.clampFlow.flowRatio := bounded_ge
  have h2 : s.clampFlow.flowRatio ≤ 1.0 := bounded_le hlow
  refine ⟨by linarith, by linarith, bounded_ge, bounded_le hvel⟩

end Bounds

section Definite

theorem floored_definite (h : PosDef s.cov) :
    s.covariance ^ 2 < s.floorVariances.varianceRatio * s.floorVariances.varianceVelocity := by
  have hfloor : PosDef s.floorVariances.cov := h.raise (le_max_right _ _) (le_max_right _ _)
  have hdet := hfloor.det
  simp only [Cov.det, KalmanFlowState.cov] at hdet
  exact sub_pos.mp hdet

theorem not_degenerate (h : PosDef s.cov) : ¬s.floorVariances.Degenerate := by
  have hdef := floored_definite h
  rw [KalmanFlowState.Degenerate, not_le, ← sq]
  norm_num
  exact hdef

/-- A definite covariance passes the check with its variances raised at most. -/
theorem ensure_definite (h : PosDef s.cov) : s.ensurePositiveDefinite = s.floorVariances :=
  if_neg (not_degenerate h)

theorem wellFormed_of (h : PosDef s.cov) (hlow : -1 ≤ s.flowRatio) (hhigh : s.flowRatio ≤ 1)
    (hvlow : minVelocity ≤ s.flowVelocity) (hvhigh : s.flowVelocity ≤ maxVelocity) :
    WellFormed s.ensurePositiveDefinite := by
  rw [ensure_definite h]
  exact ⟨le_max_left _ _, le_max_left _ _, floored_definite h, hlow, hhigh, hvlow, hvhigh⟩

end Definite

section Predict

variable {dt volatility : ℝ}

def processNoise (dt qRatio qVelocity : ℝ) : Cov ℝ :=
  ⟨qRatio * dt + qVelocity * dt * dt * dt / 3.0, qVelocity * dt, qVelocity * dt * dt / 2.0⟩

theorem processNoise_posDef {dt qRatio qVelocity : ℝ} (hdt : 0 < dt) (hr : 0 < qRatio)
    (hv : 0 < qVelocity) : PosDef (processNoise dt qRatio qVelocity) := by
  constructor
  · simp only [processNoise]
    positivity
  · have hdet : (processNoise dt qRatio qVelocity).det =
        qRatio * qVelocity * dt ^ 2 + qVelocity ^ 2 * dt ^ 4 / 12 := by
      have htwo : (2.0 : ℝ) = 2 := by norm_num
      have hthree : (3.0 : ℝ) = 3 := by norm_num
      simp only [processNoise, Cov.det, htwo, hthree]
      ring
    rw [hdet]
    positivity

theorem predicted_cov (s : KalmanFlowState ℝ) (dt volatility : ℝ) :
    ∃ qRatio qVelocity, 0 < qRatio ∧ 0 < qVelocity ∧
      (s.predicted dt volatility).cov =
        (s.cov.shear dt).add (processNoise dt qRatio qVelocity) := by
  refine ⟨bounded minProcessNoise maxProcessNoise
    (baseProcessNoise * volatility * volatilityScaling),
    bounded (minProcessNoise / 10.0) (maxProcessNoise / 10.0)
      (velocityProcessNoise * volatility), ?_, ?_, ?_⟩
  · exact lt_of_lt_of_le (by norm_num [minProcessNoise]) bounded_ge
  · exact lt_of_lt_of_le (by norm_num [minProcessNoise]) bounded_ge
  · ext
    · simp only [KalmanFlowState.cov, KalmanFlowState.predicted, Cov.add, Cov.shear, processNoise]
      norm_num
      ring
    · simp only [KalmanFlowState.cov, KalmanFlowState.predicted, Cov.add, Cov.shear, processNoise]
    · simp only [KalmanFlowState.cov, KalmanFlowState.predicted, Cov.add, Cov.shear, processNoise]

theorem predicted_posDef (h : WellFormed s) (hdt : 0 < dt) :
    PosDef (s.predicted dt volatility).cov := by
  obtain ⟨qRatio, qVelocity, hr, hv, hcov⟩ := predicted_cov s dt volatility
  rw [hcov]
  exact (h.posDef.shear dt).add (processNoise_posDef hdt hr hv)

theorem predict_wellFormed (h : WellFormed kf.state) (dt volatility : ℝ) :
    WellFormed (kf.predict dt volatility).state := by
  rw [KalmanFlowFilter.predict]
  by_cases hdt : dt ≤ 0.0
  · rw [if_pos hdt]
    exact h
  · have hpos : 0 < dt := by
      norm_num at hdt
      exact hdt
    rw [if_neg hdt, hasNan_exact]
    obtain ⟨h1, h2, h3, h4⟩ := clampFlow_keeps
      { kf.state with flowRatio := kf.state.flowRatio + kf.state.flowVelocity * dt }
    exact wellFormed_of (predicted_posDef h hpos) h1 h2 h3 h4

@[simp] theorem predict_count (kf : KalmanFlowFilter ℝ) (dt volatility : ℝ) :
    (kf.predict dt volatility).state.observationCount = kf.state.observationCount := by
  rw [KalmanFlowFilter.predict, hasNan_exact]
  split
  · rfl
  · simp only [Bool.false_eq_true, if_false, KalmanFlowState.ensurePositiveDefinite]
    split <;> rfl

end Predict

section Update

variable {observed confidence : ℝ}

theorem measurementNoise_pos (confidence : ℝ) : 0 < KalmanFlowState.measurementNoise confidence :=
  lt_of_lt_of_le (by norm_num [minMeasurementNoise]) bounded_ge

theorem measured_cov (h : WellFormed s) (observed confidence : ℝ) :
    (s.measured observed confidence).cov =
      s.cov.condition (KalmanFlowState.measurementNoise confidence) := by
  have hr := measurementNoise_pos confidence
  have ha : (0 : ℝ) < s.varianceRatio := lt_of_lt_of_le (by norm_num) h.varianceRatio
  have hlow := h.varianceRatio
  have hspread : s.innovationSpread (KalmanFlowState.measurementNoise confidence) =
      s.varianceRatio + KalmanFlowState.measurementNoise confidence := by
    refine if_neg fun hlt => ?_
    norm_num at hlt hlow
    linarith
  have hne : s.varianceRatio + KalmanFlowState.measurementNoise confidence ≠ 0 := by positivity
  ext <;> simp only [KalmanFlowState.cov, KalmanFlowState.measured, Cov.condition, hspread] <;>
    norm_num <;> field_simp <;> ring

theorem measured_posDef (h : WellFormed s) (observed confidence : ℝ) :
    PosDef (s.measured observed confidence).cov := by
  rw [measured_cov h]
  exact h.posDef.condition (measurementNoise_pos confidence)

theorem update_exact (kf : KalmanFlowFilter ℝ) (observed confidence : ℝ) (now : ℤ) :
    (kf.update observed confidence now).2 =
      { kf with state := ((kf.state.measured observed confidence).ensurePositiveDefinite.clampFlow
          ).noteInnovation (observed - kf.state.flowRatio) now } := by
  rw [KalmanFlowFilter.update, isFinite_exact]
  simp only [hasNan_exact, Bool.not_true, Bool.false_eq_true, if_false]

theorem update_wellFormed (h : WellFormed kf.state) (observed confidence : ℝ) (now : ℤ) :
    WellFormed (kf.update observed confidence now).2.state := by
  rw [update_exact]
  have hdef := measured_posDef h observed confidence
  rw [ensure_definite hdef]
  obtain ⟨h1, h2, h3, h4⟩ :=
    clampFlow_keeps (kf.state.measured observed confidence).floorVariances
  exact ⟨le_max_left _ _, le_max_left _ _, floored_definite hdef, h1, h2, h3, h4⟩

/-- The variance of the ratio was over its floor before, and conditioning lowers it. -/
theorem update_variance_le (h : WellFormed kf.state) (observed confidence : ℝ) (now : ℤ) :
    (kf.update observed confidence now).2.state.varianceRatio ≤ kf.state.varianceRatio := by
  have hcov := congrArg Cov.first (measured_cov h observed confidence)
  have hle := condition_first_le h.posDef.first (measurementNoise_pos confidence)
  rw [← hcov] at hle
  rw [update_exact, ensure_definite (measured_posDef h observed confidence)]
  exact max_le h.varianceRatio hle

end Update

section Runs

inductive Call where
  | predict (dtHours volatility : ℝ)
  | update (observedRatio confidence : ℝ) (now : ℤ)
  | apply (observedRatio confidence : ℝ) (dailyBuckets : List (DailyBucket ℝ))
      (hasObservation : Bool) (now : ℤ)

def Call.run (kf : KalmanFlowFilter ℝ) : Call → KalmanFlowFilter ℝ
  | .predict dtHours volatility => kf.predict dtHours volatility
  | .update observedRatio confidence now => (kf.update observedRatio confidence now).2
  | .apply observedRatio confidence dailyBuckets hasObservation now =>
    (applyKalmanFilter kf observedRatio confidence dailyBuckets hasObservation now).2

def runCalls (kf : KalmanFlowFilter ℝ) (calls : List Call) : KalmanFlowFilter ℝ :=
  calls.foldl Call.run kf

/-- A filter with a recorded last run, asked again before the interval is over. -/
def RecentlyUpdated (kf : KalmanFlowFilter ℝ) (now : ℤ) : Prop :=
  0 < kf.state.lastUpdate ∧ now - kf.state.lastUpdate < minUpdateIntervalSecs

def elapsedHours (kf : KalmanFlowFilter ℝ) (now : ℤ) : ℝ :=
  min (if 0 < kf.state.lastUpdate then ((now - kf.state.lastUpdate : ℤ) : ℝ) / 3600.0 else 24.0)
    168.0

variable {observed confidence : ℝ} {buckets : List (DailyBucket ℝ)} {hasObservation : Bool}
  {now : ℤ}

theorem apply_untouched (h : RecentlyUpdated kf now) :
    (applyKalmanFilter kf observed confidence buckets hasObservation now).2 = kf := by
  rw [applyKalmanFilter]
  exact congrArg Prod.snd (if_pos h)

theorem apply_updates (h : ¬RecentlyUpdated kf now) :
    (applyKalmanFilter kf observed confidence buckets true now).2 =
      { ((kf.predict (elapsedHours kf now) (calculateKalmanVolatility buckets)).update observed
          confidence now).2 with nanRecoveryCount := 0 } := by
  rw [applyKalmanFilter]
  exact congrArg Prod.snd (if_neg h)

theorem apply_predicts (h : ¬RecentlyUpdated kf now) :
    (applyKalmanFilter kf observed confidence buckets false now).2 =
      { kf.predict (elapsedHours kf now) (calculateKalmanVolatility buckets) with
        state := { (kf.predict (elapsedHours kf now) (calculateKalmanVolatility buckets)).state
          with lastUpdate := now }
        nanRecoveryCount := 0 } := by
  rw [applyKalmanFilter]
  exact congrArg Prod.snd (if_neg h)

theorem WellFormed.lastUpdate (h : WellFormed s) (t : ℤ) : WellFormed { s with lastUpdate := t } :=
  ⟨h.varianceRatio, h.varianceVelocity, h.definite, h.ratioLow, h.ratioHigh, h.velocityLow,
    h.velocityHigh⟩

theorem apply_wellFormed (h : WellFormed kf.state) (observed confidence : ℝ)
    (buckets : List (DailyBucket ℝ)) (hasObservation : Bool) (now : ℤ) :
    WellFormed (applyKalmanFilter kf observed confidence buckets hasObservation now).2.state := by
  by_cases hrecent : RecentlyUpdated kf now
  · rw [apply_untouched hrecent]
    exact h
  · have hmoved := predict_wellFormed h (elapsedHours kf now) (calculateKalmanVolatility buckets)
    cases hasObservation
    · rw [apply_predicts hrecent]
      exact hmoved.lastUpdate now
    · rw [apply_updates hrecent]
      exact update_wellFormed hmoved observed confidence now

theorem run_wellFormed (h : WellFormed kf.state) (c : Call) : WellFormed (c.run kf).state := by
  cases c with
  | predict dtHours volatility => exact predict_wellFormed h dtHours volatility
  | update observedRatio confidence now => exact update_wellFormed h observedRatio confidence now
  | apply observedRatio confidence dailyBuckets hasObservation now =>
    exact apply_wellFormed h observedRatio confidence dailyBuckets hasObservation now

theorem runCalls_wellFormed (h : WellFormed kf.state) (calls : List Call) :
    WellFormed (runCalls kf calls).state := by
  induction calls generalizing kf with
  | nil => exact h
  | cons c calls ih => exact ih (run_wellFormed h c)

theorem default_wellFormed : WellFormed KalmanFlowState.default := by
  constructor <;>
    norm_num [KalmanFlowState.default, initialVariance, minVelocity, maxVelocity]

theorem apply_count (hrecent : hasObservation = false ∨ RecentlyUpdated kf now) :
    (applyKalmanFilter kf observed confidence buckets hasObservation now).2.state.observationCount =
      kf.state.observationCount := by
  by_cases hnow : RecentlyUpdated kf now
  · rw [apply_untouched hnow]
  · rcases hrecent with rfl | hrecent
    · rw [apply_predicts hnow]
      exact predict_count kf _ _
    · exact absurd hrecent hnow

/-- In every state of every run from a well-formed one: the state is well formed, no step needs the
repair, an update does not raise the variance of the ratio, a prediction and a call without an
observation or inside the interval leave the count, and a call inside the interval of a filter that
has run leaves everything. -/
theorem flow_filter_stays_well_formed (start : KalmanFlowFilter ℝ) (hstart : WellFormed start.state)
    (calls : List Call) :
    let kf := runCalls start calls
    WellFormed kf.state ∧
      (∀ dtHours volatility, 0 < dtHours →
        ¬(kf.state.predicted dtHours volatility).floorVariances.Degenerate) ∧
      (∀ observed confidence,
        ¬(kf.state.measured observed confidence).floorVariances.Degenerate) ∧
      (∀ observed confidence now,
        (kf.update observed confidence now).2.state.varianceRatio ≤ kf.state.varianceRatio) ∧
      (∀ dtHours volatility,
        (kf.predict dtHours volatility).state.observationCount = kf.state.observationCount) ∧
      (∀ observed confidence buckets hasObservation now,
        hasObservation = false ∨ RecentlyUpdated kf now →
        (applyKalmanFilter kf observed confidence buckets hasObservation
          now).2.state.observationCount = kf.state.observationCount) ∧
      (∀ observed confidence buckets hasObservation now, RecentlyUpdated kf now →
        (applyKalmanFilter kf observed confidence buckets hasObservation now).2 = kf) := by
  intro kf
  have h : WellFormed kf.state := runCalls_wellFormed hstart calls
  refine ⟨h, ?_, ?_, ?_, ?_, ?_, ?_⟩
  · exact fun dtHours volatility hdt => not_degenerate (predicted_posDef h hdt)
  · exact fun observed confidence => not_degenerate (measured_posDef h observed confidence)
  · exact update_variance_le h
  · exact predict_count kf
  · exact fun observed confidence buckets hasObservation now hquiet => apply_count hquiet
  · exact fun observed confidence buckets hasObservation now hrecent => apply_untouched hrecent

theorem flow_filter_stays_well_formed_default :
    let kf := runCalls (.new none) [.apply 0.4 0.9 [] true 1700000000, .predict 6 2]
    WellFormed kf.state := by
  exact (flow_filter_stays_well_formed (.new none) default_wellFormed
    [.apply 0.4 0.9 [] true 1700000000, .predict 6 2]).1

/-- A filter that never ran keeps the time 0, so its first call runs however early it comes. -/
theorem first_call_is_not_skipped :
    ¬∀ (start : KalmanFlowFilter ℝ), WellFormed start.state → ∀ calls : List Call,
      let kf := runCalls start calls
      ∀ observed confidence buckets hasObservation now, 0 < now →
        now - kf.state.lastUpdate < minUpdateIntervalSecs →
        (applyKalmanFilter kf observed confidence buckets hasObservation now).2.state =
          kf.state := by
  intro hclaim
  have hrecent : ¬RecentlyUpdated (.new none) 100 := fun h => lt_irrefl _ h.1
  have hkept := hclaim (.new none) default_wellFormed [] 0 1 [] false 100 (by decide) (by decide)
  have htime := congrArg KalmanFlowState.lastUpdate hkept
  rw [show runCalls (.new none) [] = .new none from rfl, apply_predicts hrecent] at htime
  exact absurd htime (by decide)

end Runs

end

end Kalman
