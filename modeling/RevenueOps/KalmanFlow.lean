import RevenueOps.Arithmetic

/-! The flow filter of one channel: a two-state Kalman filter of the flow ratio and its velocity,
and the gate that leaves it alone when it ran a moment ago. Generic in its numbers. -/
namespace Kalman

open Arithmetic

variable {F : Type} [Add F] [Sub F] [Mul F] [Div F] [Neg F] [LT F] [LE F] [DecidableLT F]
  [DecidableLE F] [OfScientific F] [F64 F] [F64Functions F]

section State

def maxVelocity : F := 0.5 / 24.0
def minVelocity : F := -0.5 / 24.0
def baseProcessNoise : F := 0.01 / 24.0
def velocityProcessNoise : F := 0.005 / 24.0
def minProcessNoise : F := 0.001 / 24.0
def maxProcessNoise : F := 0.1 / 24.0
def baseMeasurementNoise : F := 0.05
def minMeasurementNoise : F := 0.01
def maxMeasurementNoise : F := 0.5
def initialVariance : F := 0.1
def volatilityScaling : F := 2.0
def confidenceScaling : F := 0.8
def minUpdateIntervalSecs : ℤ := 300

structure KalmanFlowState (F : Type) where
  flowRatio : F
  flowVelocity : F
  varianceRatio : F
  varianceVelocity : F
  covariance : F
  lastUpdate : ℤ
  innovationVariance : F
  lastInnovation : F
  observationCount : ℤ

def KalmanFlowState.default : KalmanFlowState F where
  flowRatio := 0.0
  flowVelocity := 0.0
  varianceRatio := initialVariance
  varianceVelocity := initialVariance
  covariance := 0.0
  lastUpdate := 0
  innovationVariance := 0.01
  lastInnovation := 0.0
  observationCount := 0

structure KalmanFlowFilter (F : Type) where
  state : KalmanFlowState F
  nanRecoveryCount : ℕ

def KalmanFlowFilter.new (state : Option (KalmanFlowState F)) : KalmanFlowFilter F :=
  ⟨state.getD .default, 0⟩

def bounded (lo hi x : F) : F := F64.max lo (F64.min hi x)

end State

namespace KalmanFlowState

def hasNan (s : KalmanFlowState F) : Bool :=
  !(F64.isFinite s.flowRatio && F64.isFinite s.flowVelocity && F64.isFinite s.varianceRatio &&
    F64.isFinite s.varianceVelocity && F64.isFinite s.covariance &&
    F64.isFinite s.innovationVariance && F64.isFinite s.lastInnovation)

def floorVariances (s : KalmanFlowState F) : KalmanFlowState F :=
  { s with varianceRatio := F64.max 1e-4 s.varianceRatio
           varianceVelocity := F64.max 1e-4 s.varianceVelocity }

def Degenerate (s : KalmanFlowState F) : Prop :=
  s.varianceRatio * s.varianceVelocity - s.covariance * s.covariance ≤ 0.0

instance (s : KalmanFlowState F) : Decidable s.Degenerate := inferInstanceAs (Decidable (_ ≤ _))

def repairCovariance (s : KalmanFlowState F) : KalmanFlowState F :=
  let maxCov := F64Functions.sqrt (s.varianceRatio * s.varianceVelocity) * 0.9
  { s with covariance := bounded (-maxCov) maxCov s.covariance }

def ensurePositiveDefinite (s : KalmanFlowState F) : KalmanFlowState F :=
  let floored := s.floorVariances
  if floored.Degenerate then floored.repairCovariance else floored

def clampFlow (s : KalmanFlowState F) : KalmanFlowState F :=
  { s with flowRatio := bounded (-1.0) 1.0 s.flowRatio
           flowVelocity := bounded minVelocity maxVelocity s.flowVelocity }

/-- The time update, before its covariance is checked. -/
def predicted (s : KalmanFlowState F) (dtHours volatility : F) : KalmanFlowState F :=
  let moved := { s with flowRatio := s.flowRatio + s.flowVelocity * dtHours }.clampFlow
  let qRatio := bounded minProcessNoise maxProcessNoise
    (baseProcessNoise * volatility * volatilityScaling)
  let qVelocity := bounded (minProcessNoise / 10.0) (maxProcessNoise / 10.0)
    (velocityProcessNoise * volatility)
  let p00 := s.varianceRatio
  let p01 := s.covariance
  let p11 := s.varianceVelocity
  { moved with
    varianceRatio := p00 + 2.0 * dtHours * p01 + dtHours * dtHours * p11 + qRatio * dtHours +
      qVelocity * dtHours * dtHours * dtHours / 3.0
    covariance := p01 + dtHours * p11 + qVelocity * dtHours * dtHours / 2.0
    varianceVelocity := p11 + qVelocity * dtHours }

def measurementNoise (confidence : F) : F :=
  bounded minMeasurementNoise maxMeasurementNoise
    (baseMeasurementNoise / F64.max 0.1 (confidence * confidenceScaling))

def innovationSpread (s : KalmanFlowState F) (r : F) : F :=
  if s.varianceRatio + r < 1e-10 then 1e-10 else s.varianceRatio + r

/-- The measurement update, before its covariance is checked. -/
def measured (s : KalmanFlowState F) (observedRatio confidence : F) : KalmanFlowState F :=
  let r := measurementNoise confidence
  let innovation := observedRatio - s.flowRatio
  let spread := s.innovationSpread r
  let k0 := s.varianceRatio / spread
  let k1 := s.covariance / spread
  let p00 := s.varianceRatio
  let p01 := s.covariance
  let p11 := s.varianceVelocity
  { s with
    flowRatio := s.flowRatio + k0 * innovation
    flowVelocity := s.flowVelocity + k1 * innovation
    varianceRatio := (1.0 - k0) * p00 * (1.0 - k0) + k0 * k0 * r
    covariance := (1.0 - k0) * p01 - k1 * (1.0 - k0) * p00 + k0 * k1 * r
    varianceVelocity := p11 - k1 * p01 - k1 * (p01 - k1 * p00) + k1 * k1 * r }

/-- What an update leaves behind besides the estimate. -/
def noteInnovation (s : KalmanFlowState F) (innovation : F) (now : ℤ) : KalmanFlowState F :=
  { s with
    lastInnovation := innovation
    innovationVariance :=
      F64.max 0.001 (0.9 * s.innovationVariance + 0.1 * innovation * innovation)
    lastUpdate := now
    observationCount := s.observationCount + 1 }

end KalmanFlowState

namespace KalmanFlowFilter

def resetState (kf : KalmanFlowFilter F) : KalmanFlowFilter F :=
  ⟨.default, kf.nanRecoveryCount + 1⟩

def resetIfNan (kf : KalmanFlowFilter F) : KalmanFlowFilter F :=
  if kf.state.hasNan then kf.resetState else kf

def predict (kf : KalmanFlowFilter F) (dtHours volatility : F) : KalmanFlowFilter F :=
  if dtHours ≤ 0.0 then kf
  else if kf.state.hasNan then kf.resetState
  else { kf with state := (kf.state.predicted dtHours volatility).ensurePositiveDefinite }

/-- An observation that is not finite is not taken in; a state that is not is noticed last. -/
def update (kf : KalmanFlowFilter F) (observedRatio confidence : F) (now : ℤ) :
    F × KalmanFlowFilter F :=
  if !F64.isFinite observedRatio then (0.0, kf)
  else
    let innovation := observedRatio - kf.state.flowRatio
    let state := ((kf.state.measured observedRatio confidence).ensurePositiveDefinite.clampFlow
      ).noteInnovation innovation now
    if state.hasNan then (0.0, { kf with state := state }.resetState)
    else (innovation, { kf with state := state })

def getUncertainty (kf : KalmanFlowFilter F) : F :=
  F64Functions.sqrt (F64.max 0.0 kf.state.varianceRatio)

def isRegimeChange (kf : KalmanFlowFilter F) (threshold : F) : Bool :=
  threshold * F64Functions.sqrt (F64.max 0.001 kf.state.innovationVariance) <
    F64.abs kf.state.lastInnovation

end KalmanFlowFilter

section Apply

structure DailyBucket (F : Type) where
  outflow : F
  inflow : F

def sumF64 (xs : List F) : F := xs.foldl (· + ·) 0.0

def ratioOfLength (xs : List F) : F := sumF64 xs / F64.ofInt xs.length

def calculateKalmanVolatility (dailyBuckets : List (DailyBucket F)) : F :=
  if dailyBuckets.length < 3 then 1.0
  else
    let netFlows := dailyBuckets.map fun b => b.outflow - b.inflow
    let changes := (netFlows.zip netFlows.tail).map fun p => F64.abs (p.2 - p.1)
    let meanChange := ratioOfLength changes
    let meanFlow := ratioOfLength (netFlows.map F64.abs)
    if meanFlow < 1000.0 then 0.5
    else 0.5 + F64.min 1.5 (meanChange / F64.max 1.0 meanFlow * 3.0)

inductive KalmanStep where
  | untouched
  | predictOnly
  | updated
  deriving DecidableEq, Repr

structure KalmanFilterOutcome (F : Type) where
  flowRatio : F
  flowVelocity : F
  uncertainty : F
  regimeChange : Bool
  observationCount : ℤ
  step : KalmanStep
  nanRecoveryDelta : ℕ

def outcomeOf (kf : KalmanFlowFilter F) (step : KalmanStep) (nanRecoveryDelta : ℕ) :
    KalmanFilterOutcome F :=
  ⟨kf.state.flowRatio, kf.state.flowVelocity, kf.getUncertainty, kf.isRegimeChange 2.5,
    kf.state.observationCount, step, nanRecoveryDelta⟩

/-- One run of the analyzer over the filter of one channel. A filter that never ran is assumed to
be a day old. -/
def applyKalmanFilter (kf : KalmanFlowFilter F) (observedRatio confidence : F)
    (dailyBuckets : List (DailyBucket F)) (hasObservation : Bool) (now : ℤ) :
    KalmanFilterOutcome F × KalmanFlowFilter F :=
  let volatility := calculateKalmanVolatility dailyBuckets
  let elapsed : F :=
    if 0 < kf.state.lastUpdate then F64.ofInt (now - kf.state.lastUpdate) / 3600.0 else 24.0
  let dtHours := F64.min elapsed 168.0
  if 0 < kf.state.lastUpdate ∧ now - kf.state.lastUpdate < minUpdateIntervalSecs then
    (outcomeOf kf .untouched 0, kf)
  else
    let moved := kf.predict dtHours volatility
    let (step, ran) : KalmanStep × KalmanFlowFilter F :=
      if hasObservation then (.updated, (moved.update observedRatio confidence now).2)
      else
        (.predictOnly, { moved with state := { moved.state with lastUpdate := now } }.resetIfNan)
    let counted := { ran with nanRecoveryCount := 0 }
    (outcomeOf counted step ran.nanRecoveryCount, counted)

end Apply

end Kalman
