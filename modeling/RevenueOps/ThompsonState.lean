import RevenueOps.Mat3
import RevenueOps.PyValue

/-! The learned state of one channel: discounted Gaussian Thompson sampling over a quadratic
revenue model, and the durable nudges that move its posterior from outside. -/
namespace Thompson

open Arithmetic Mat3 PyJson

section State

structure Observation (F : Type) where
  fee : F
  feeIsInt : Bool
  revenueRate : F
  weight : F
  ts : ℤ
  timeBucket : String
  flag : Option String
  extra : List OValue

def congestionObsFlag : String := "congestion"
def zeroProbeFlag : String := "zero_probe"

def Observation.new {F : Type} (fee revenueRate weight : F) (ts : ℤ) (timeBucket : String) :
    Observation F :=
  ⟨fee, true, revenueRate, weight, ts, timeBucket, none, []⟩

def Observation.withFlag {F : Type} (fee revenueRate weight : F) (ts : ℤ)
    (timeBucket flag : String) : Observation F :=
  ⟨fee, true, revenueRate, weight, ts, timeBucket, some flag, []⟩

structure CtxPosterior (F : Type) where
  mean : F
  precision : F
  count : ℤ
  lastUpdate : ℤ
  wasLegacy3tuple : Bool

structure Nudge (F : Type) where
  target : F
  weight : F
  ts : ℤ

structure GaussianThompsonState (F : Type) where
  priorMeanFee : F
  priorStdFee : F
  priorMeanFeeIsInt : Bool
  priorStdFeeIsInt : Bool
  observations : List (Observation F)
  posteriorMean : F
  posteriorStd : F
  posteriorMeanIsInt : Bool
  posteriorStdIsInt : Bool
  posteriorCoeffs : V3 F
  posteriorPrecision : M3 F
  noiseVariance : F
  priorCoeffs : V3 F
  priorPrecision : M3 F
  lastFeeMin : F
  lastFeeMax : F
  contextualPosteriors : List (String × CtxPosterior F)
  posteriorBias : List (Nudge F)
  chargedFeeMean : F
  zeroRevenueStreak : ℤ
  zeroRunStartFee : F
  zeroRunStartTs : ℤ
  positiveRateRef : F
  positiveRateRefTs : ℤ
  meaningfulGapEmaHours : F
  lastMeaningfulTs : ℤ
  lastUpwardProbeTs : ℤ
  explorationBoost : F
  lastSampledFee : ℤ
  lastSampleTime : ℤ
  reseededAt : ℤ
  extra : List (String × OValue)

variable {F : Type} [OfScientific F]

def GaussianThompsonState.default : GaussianThompsonState F where
  priorMeanFee := 200.0
  priorStdFee := 100.0
  priorMeanFeeIsInt := true
  priorStdFeeIsInt := true
  observations := []
  posteriorMean := 200.0
  posteriorStd := 100.0
  posteriorMeanIsInt := false
  posteriorStdIsInt := false
  posteriorCoeffs := ![0.0, 1.0, 0.0]
  posteriorPrecision := ![![0.01, 0.0, 0.0], ![0.0, 0.01, 0.0], ![0.0, 0.0, 0.01]]
  noiseVariance := 1000.0
  priorCoeffs := ![0.0, 1.0, 0.0]
  priorPrecision := ![![0.01, 0.0, 0.0], ![0.0, 0.01, 0.0], ![0.0, 0.0, 0.01]]
  lastFeeMin := 0.0
  lastFeeMax := 0.0
  contextualPosteriors := []
  posteriorBias := []
  chargedFeeMean := 0.0
  zeroRevenueStreak := 0
  zeroRunStartFee := 0.0
  zeroRunStartTs := 0
  positiveRateRef := 0.0
  positiveRateRefTs := 0
  meaningfulGapEmaHours := 0.0
  lastMeaningfulTs := 0
  lastUpwardProbeTs := 0
  explorationBoost := 1.0
  lastSampledFee := 0
  lastSampleTime := 0
  reseededAt := 0
  extra := []

end State

section Nudges

variable {F : Type} [Add F] [Sub F] [Mul F] [Div F] [LT F] [LE F] [DecidableLT F] [DecidableLE F]
  [OfScientific F] [F64 F]

def maxBiasNudges : ℕ := 50
def nudgeDedupTolerance : F := 0.05

/-- The share w/(1+w) of the distance; only the mean moves. -/
def blendPosteriorToward (s : GaussianThompsonState F) (targetFee weight : F) :
    GaussianThompsonState F :=
  if weight ≤ 0.0 then s
  else
    { s with
      posteriorMean := s.posteriorMean + (targetFee - s.posteriorMean) * (weight / (1.0 + weight))
      posteriorMeanIsInt := false }

def sameTarget (existing targetFee : F) : Bool :=
  F64.abs (existing - targetFee) ≤
    nudgeDedupTolerance * F64.max (F64.max existing targetFee) 1.0

/-- The first recorded nudge close to the target takes it over, with the larger weight. -/
def refreshNudge (targetFee weight : F) (now : ℤ) : List (Nudge F) → Option (List (Nudge F))
  | [] => none
  | n :: rest =>
    if sameTarget n.target targetFee then some (⟨targetFee, F64.max n.weight weight, now⟩ :: rest)
    else (refreshNudge targetFee weight now rest).map (n :: ·)

def appendNudge (bias : List (Nudge F)) (n : Nudge F) : List (Nudge F) :=
  let grown := bias ++ [n]
  grown.drop (grown.length - maxBiasNudges)

/-- A refreshed nudge is not blended in a second time. -/
def recordPosteriorNudge (s : GaussianThompsonState F) (targetFee weight : F) (now : ℤ) :
    GaussianThompsonState F :=
  if !(F64.isFinite targetFee && F64.isFinite weight) then s
  else if weight ≤ 0.0 ∨ targetFee < 0.0 then s
  else
    match refreshNudge targetFee weight now s.posteriorBias with
    | some bias => { s with posteriorBias := bias }
    | none =>
      blendPosteriorToward
        { s with posteriorBias := appendNudge s.posteriorBias ⟨targetFee, weight, now⟩ }
        targetFee weight

end Nudges

end Thompson
