import RevenueOps.RustFloat
import RevenueOps.ThompsonState

/-! The rebuild of the posterior: from the prior, from an anchor while a channel earns nothing, from
the Normal model of a narrow range of fees, or from a quadratic regression, concave or not; then the
replay of the nudges. And the discount that forgets. -/
namespace Thompson

open Arithmetic Mat3
open RustFloat (clampF64)

variable {F : Type} [Add F] [Sub F] [Mul F] [Div F] [Neg F] [LT F] [LE F] [DecidableLT F]
  [DecidableLE F] [OfScientific F] [F64 F] [F64Functions F]

section Sums

/-- The sum of CPython 3.12 and later, with Neumaier's compensation. -/
def pySum (xs : List F) : F :=
  let step (acc : F × F) (x : F) : F × F :=
    let t := acc.1 + x
    (t, acc.2 +
      (if F64.abs x ≤ F64.abs acc.1 then (acc.1 - t) + x else (x - t) + acc.1))
  let total := xs.foldl step (0.0, 0.0)
  total.1 + total.2

/-- The code folds from an infinity, and asks no empty list. -/
def minOf (xs : List F) : F := xs.foldl F64.min (xs.headD 0.0)
def maxOf (xs : List F) : F := xs.foldl F64.max (xs.headD 0.0)

def quarterSpread (fees : List F) : F :=
  if 1 < fees.length then (maxOf fees - minOf fees) / 4.0 else 0.0

end Sums

section Constants

def maxObservations : ℕ := 200
def decayHours : F := 168.0
def minStd : F := 10.0
def trickleResetFrac : F := 0.10
def positiveRateEmaAlpha : F := 0.2
def positiveRateRefHalfLifeHours : F := 168.0
def meaningfulGapEmaAlpha : F := 0.3
def supportedCeilingMinWeight : F := 1e-3
def relMinStdFrac : F := 0.04
def zeroRevenueStreakThreshold : ℤ := 4
def zeroProbeStepFrac : F := 0.9
def zeroProbeFloorFrac : F := 0.3
def zeroRegimeRelStd : F := 0.15
def zeroRegimeStreakOverride : ℤ := 24
def zeroRegimeAnchorHalfLifeHours : F := 24.0
def biasDecayHours : F := 24.0
def biasMinWeight : F := 1e-3
def minPrecision : F := 0.000025
def discountWeightFloor : F := 0.05

/-- The widest std that a precision over its minimum has. -/
def maxStd : F := F64Functions.sqrt (1.0 / minPrecision)

end Constants

section Masses

def hoursBetween (now ts : ℤ) : F := F64.ofInt (now - ts) / 3600.0

def halfLife (hours period : F) : F := F64Functions.powf 0.5 (hours / period)

def effectivePositiveRateRef (s : GaussianThompsonState F) (now : ℤ) : F :=
  if s.positiveRateRef ≤ 0.0 ∨ s.positiveRateRefTs ≤ 0 then 0.0
  else
    s.positiveRateRef *
      halfLife (F64.max (hoursBetween now s.positiveRateRefTs) 0.0) positiveRateRefHalfLifeHours

structure FeeMass (F : Type) where
  fee : F
  mass : F

def earningMass (now : ℤ) (o : Observation F) : Option (FeeMass F) :=
  if o.revenueRate ≤ 0.0 then none
  else if o.flag = some congestionObsFlag then none
  else
    let mass := o.revenueRate * o.weight *
      halfLife (F64.max (hoursBetween now o.ts) 0.0) decayHours
    if supportedCeilingMinWeight < mass then some ⟨o.fee, mass⟩ else none

/-- One window counts at most three times the median one. -/
def winsorize (masses : List (FeeMass F)) : List (FeeMass F) :=
  if 4 ≤ masses.length then
    let sorted := (masses.map FeeMass.mass).mergeSort fun a b => decide (a ≤ b)
    let cap := 3.0 * sorted.getD (sorted.length / 2) 0.0
    masses.map fun m => { m with mass := F64.min m.mass cap }
  else masses

def positiveRevenueMass (s : GaussianThompsonState F) (now : ℤ) : List (FeeMass F) :=
  winsorize (s.observations.filterMap (earningMass now))

def meanFee (masses : List (FeeMass F)) : F :=
  pySum (masses.map fun m => m.fee * m.mass) / pySum (masses.map FeeMass.mass)

def earningRegionFee (s : GaussianThompsonState F) (now : ℤ) : Option F :=
  let masses := positiveRevenueMass s now
  if pySum (masses.map FeeMass.mass) ≤ 0.0 then none else some (meanFee masses)

end Masses

section Legacy

structure WeightedObs (F : Type) where
  fee : F
  revenue : F
  weight : F

def WeightedObs.feeMass (o : WeightedObs F) : FeeMass F := ⟨o.fee, o.weight⟩

def decayedWeight (now : ℤ) (o : Observation F) : F :=
  o.weight * halfLife (hoursBetween now o.ts) decayHours

def livingObs (s : GaussianThompsonState F) (now : ℤ) : List (Observation F × F) :=
  (s.observations.map fun o => (o, decayedWeight now o)).filter fun p => !decide (p.2 < 1e-6)

def normalPosterior (s : GaussianThompsonState F) (wobs : List (WeightedObs F)) :
    GaussianThompsonState F :=
  let totalWeight := pySum (wobs.map WeightedObs.weight)
  if 0.1 < totalWeight then
    let obsMean := pySum (wobs.map fun o => o.fee * o.weight) / totalWeight
    let squares := pySum (wobs.map fun o => o.fee * o.fee * o.weight) / totalWeight
    let variance :=
      F64.max (F64.max (squares - F64Functions.powf obsMean 2.0) 0.0) (minStd * minStd)
    let priorPrecision :=
      1.0 / F64.max (minStd * minStd) (F64Functions.powf s.priorStdFee 2.0)
    let dataPrecision := totalWeight / variance
    let posteriorPrecision := priorPrecision + dataPrecision
    let mean := (priorPrecision * s.priorMeanFee + dataPrecision * obsMean) / posteriorPrecision
    { s with
      posteriorMean := mean
      posteriorStd := F64.max (F64.max minStd (relMinStdFrac * F64.abs mean))
        (1.0 / F64Functions.sqrt posteriorPrecision) }
  else { s with posteriorMean := s.priorMeanFee, posteriorStd := s.priorStdFee }

def floatTags (s : GaussianThompsonState F) : GaussianThompsonState F :=
  { s with posteriorMeanIsInt := false, posteriorStdIsInt := false }

def recomputePosteriorLegacy (s : GaussianThompsonState F)
    (weighted : Option (List (WeightedObs F)))
    (now : ℤ) : GaussianThompsonState F :=
  let s := floatTags s
  match weighted with
  | some wobs => normalPosterior s wobs
  | none =>
    if s.observations.isEmpty then
      { s with posteriorMean := s.priorMeanFee, posteriorStd := s.priorStdFee }
    else
      normalPosterior s
        ((livingObs s now).map fun p => ⟨p.1.fee, p.1.revenueRate, p.2⟩)

end Legacy

section Anchor

structure AnchorObs (F : Type) where
  fee : F
  weight : F
  ts : ℤ

def AnchorObs.feeMass (a : AnchorObs F) : FeeMass F := ⟨a.fee, a.weight⟩

def AnchorObs.faded (now : ℤ) (a : AnchorObs F) : AnchorObs F :=
  { a with weight :=
      a.weight * halfLife (F64.max (hoursBetween now a.ts) 0.0) zeroRegimeAnchorHalfLifeHours }

def anchorPool (s : GaussianThompsonState F) (now : ℤ) : List (AnchorObs F) :=
  (livingObs s now).map fun p => ⟨p.1.fee, p.2, p.1.ts⟩

def weightedObs (s : GaussianThompsonState F) (now : ℤ) : List (WeightedObs F) :=
  ((livingObs s now).filter fun p => !decide (p.1.flag = some zeroProbeFlag)).map fun p =>
    ⟨p.1.fee, p.1.revenueRate, p.2⟩

def anchorStd (mean : F) (fees : List F) : F :=
  F64.max minStd (F64.min maxStd (F64.max (quarterSpread fees) (zeroRegimeRelStd * mean)))

def streakOverride (s : GaussianThompsonState F) : Bool :=
  decide (zeroRegimeStreakOverride ≤ s.zeroRevenueStreak) && decide (0 < s.zeroRunStartTs)

/-- What the recent charged and probed fees say, or all of them where the run left none. -/
def recencyPairs (s : GaussianThompsonState F) (now : ℤ) (pool : List (AnchorObs F)) :
    List (FeeMass F) :=
  let anchorAll := pool.map (AnchorObs.faded now)
  let ofRun := if streakOverride s then anchorAll.filter fun a => decide (s.zeroRunStartTs ≤ a.ts)
    else []
  (if ofRun.isEmpty then anchorAll else ofRun).map AnchorObs.feeMass

/-- Mean and std while nothing is earned; none sends the rebuild on to the fit. -/
def regimeAnchor (s : GaussianThompsonState F) (now : ℤ) (weighted : List (WeightedObs F))
    (pool : List (AnchorObs F)) : Option (F × F) :=
  let zeroMass := decide (pySum (weighted.map fun o => o.revenue * o.weight) ≤ 1e-9)
  if decide (0.0 < pySum (pool.map AnchorObs.weight)) && (zeroMass || streakOverride s) then
    match (if streakOverride s then earningRegionFee s now else none) with
    | some anchor => some (anchor, anchorStd anchor ((positiveRevenueMass s now).map FeeMass.fee))
    | none =>
      let pairs := recencyPairs s now pool
      if 0.0 < pySum (pairs.map FeeMass.mass) then
        some (meanFee pairs, anchorStd (meanFee pairs) (pairs.map FeeMass.fee))
      else none
  else none

end Anchor

section Fit

def accumulate (feeMin invRange invSigma2 : F) (acc : M3 F × V3 F) (o : WeightedObs F) :
    M3 F × V3 F :=
  let f := (o.fee - feeMin) * invRange
  let phi : V3 F := ![f * f, f, 1.0]
  let wi := o.weight * invSigma2
  (fun i j => acc.1 i j + wi * phi i * phi j, fun i => acc.2 i + wi * phi i * o.revenue)

def residuals (feeMin invRange : F) (mu : V3 F) (wobs : List (WeightedObs F)) : F × F :=
  wobs.foldl (fun acc o =>
    let f := (o.fee - feeMin) * invRange
    let pred := mu 0 * f * f + mu 1 * f + mu 2
    (acc.1 + o.weight * F64Functions.powf (o.revenue - pred) 2.0, acc.2 + o.weight)) (0.0, 0.0)

def vertexVariance (a b : F) (sigma : M3 F) : F :=
  let grad : V3 F := ![b / (2.0 * a * a), -1.0 / (2.0 * a), 0.0]
  let cells : List (Fin 3 × Fin 3) :=
    [(0, 0), (0, 1), (0, 2), (1, 0), (1, 1), (1, 2), (2, 0), (2, 1), (2, 2)]
  cells.foldl (fun acc c => acc + grad c.1 * sigma c.1 c.2 * grad c.2) 0.0

def bucketKey (fee : F) : ℤ :=
  F64.toI64 (F64Functions.ln (F64.max fee 1.0) / F64Functions.ln 1.1)

/-- The buckets in the order of their first observation. -/
def feeBuckets (wobs : List (WeightedObs F)) : List (List (WeightedObs F)) :=
  let keys := wobs.foldl (fun keys o =>
    if bucketKey o.fee ∈ keys then keys else keys ++ [bucketKey o.fee]) []
  keys.map fun k => wobs.filter fun o => decide (bucketKey o.fee = k)

def bucketMean (entries : List (WeightedObs F)) : F := meanFee (entries.map WeightedObs.feeMass)

def bucketLcb (entries : List (WeightedObs F)) : F :=
  let bw := pySum (entries.map WeightedObs.weight)
  let meanRev := pySum (entries.map fun o => o.revenue * o.weight) / bw
  let var := pySum (entries.map fun o =>
    o.weight * F64Functions.powf (o.revenue - meanRev) 2.0) / bw
  let sq := pySum (entries.map fun o => o.weight * o.weight)
  let nEff := if 0.0 < sq then bw * bw / sq else 1.0
  meanRev - F64Functions.sqrt (F64.max var 0.0) / F64Functions.sqrt (F64.max nEff 1.0)

/-- The mean fee of the first bucket with the highest lower bound. -/
def bestRegion (feeMin : F) (wobs : List (WeightedObs F)) : F :=
  let step (best : F × Option F) (entries : List (WeightedObs F)) : F × Option F :=
    if pySum (entries.map WeightedObs.weight) ≤ 0.0 then best
    else
      match best.2 with
      | some lcb =>
        if lcb < bucketLcb entries then (bucketMean entries, some (bucketLcb entries)) else best
      | none => (bucketMean entries, some (bucketLcb entries))
  ((feeBuckets wobs).foldl step (feeMin, none)).1

def fittedPosterior (wobs : List (WeightedObs F)) (feeMin feeRange : F) (mu : V3 F)
    (sigma : M3 F) : F × F :=
  let a := mu 0
  let b := mu 1
  if a < -1e-8 then
    let fStar := clampF64 (-b / (2.0 * a)) (-0.5) 1.5
    (fStar * feeRange + feeMin,
      F64.max minStd (F64Functions.sqrt (F64.max (vertexVariance a b sigma) 0.0) * feeRange))
  else
    let fees := wobs.map WeightedObs.fee
    let spreadStd := (maxOf fees - minOf fees) / 4.0
    let inflation := F64Functions.sqrt (F64.ofInt wobs.length /
      F64.max (pySum (wobs.map WeightedObs.weight)) 1e-6)
    (bestRegion feeMin wobs, F64.max minStd (F64.min maxStd (spreadStd * inflation)))

def fitPosterior (s : GaussianThompsonState F) (wobs : List (WeightedObs F)) (now : ℤ) :
    GaussianThompsonState F :=
  let fees := wobs.map WeightedObs.fee
  let feeMin := minOf fees
  let feeRange := maxOf fees - feeMin
  if wobs.length < 3 then recomputePosteriorLegacy s (some wobs) now
  else if feeRange < 5.0 then recomputePosteriorLegacy s (some wobs) now
  else
    let invRange := 1.0 / feeRange
    let invSigma2 := 1.0 / F64.max 10.0 s.noiseVariance
    let normal := wobs.foldl (accumulate feeMin invRange invSigma2)
      (s.priorPrecision, matvec3 s.priorPrecision s.priorCoeffs)
    match invert3 normal.1 with
    | none => recomputePosteriorLegacy s (some wobs) now
    | some sigma =>
      let mu := matvec3 sigma normal.2
      let res := residuals feeMin invRange mu wobs
      let newSigma2 := res.1 / F64.max (res.2 - 3.0) 1.0
      let fitted := fittedPosterior wobs feeMin feeRange mu sigma
      { s with
        noiseVariance := F64.max 10.0 (0.7 * newSigma2 + 0.3 * s.noiseVariance)
        posteriorCoeffs := mu
        posteriorPrecision := normal.1
        lastFeeMin := feeMin
        lastFeeMax := maxOf fees
        posteriorMean := fitted.1
        posteriorStd := fitted.2 }

end Fit

section Recompute

/-- The weighted mean of the charged fees; without weight the old one stays. -/
def trackChargedFee (s : GaussianThompsonState F) (wobs : List (WeightedObs F)) :
    GaussianThompsonState F :=
  if 0.0 < pySum (wobs.map WeightedObs.weight) then
    { s with chargedFeeMean := meanFee (wobs.map WeightedObs.feeMass) }
  else s

def recomputePosteriorCore (s : GaussianThompsonState F) (now : ℤ) : GaussianThompsonState F :=
  let s := floatTags s
  if s.observations.isEmpty then
    { s with posteriorMean := s.priorMeanFee, posteriorStd := s.priorStdFee, chargedFeeMean := 0.0 }
  else
    let wobs := weightedObs s now
    let tracked := trackChargedFee s wobs
    match regimeAnchor tracked now wobs (anchorPool s now) with
    | some (mean, std) =>
      { tracked with
        posteriorMean := mean, posteriorStd := std, lastFeeMin := 0.0, lastFeeMax := 0.0 }
    | none => fitPosterior tracked wobs now

/-- A nudge that has not faded is kept and blended in with what is left of it. -/
def replayNudge (now : ℤ) (acc : GaussianThompsonState F × List (Nudge F)) (n : Nudge F) :
    GaussianThompsonState F × List (Nudge F) :=
  let decayed := n.weight * halfLife (F64.max (hoursBetween now n.ts) 0.0) biasDecayHours
  if decayed < biasMinWeight then acc
  else (blendPosteriorToward acc.1 n.target decayed, acc.2 ++ [n])

def applyPosteriorBias (s : GaussianThompsonState F) (now : ℤ) : GaussianThompsonState F :=
  if s.posteriorBias.isEmpty then s
  else
    let replayed := s.posteriorBias.foldl (replayNudge now) (s, [])
    { replayed.1 with posteriorBias := replayed.2 }

def recomputePosteriorAtTimes (s : GaussianThompsonState F) (recomputeNow biasNow : ℤ) :
    GaussianThompsonState F :=
  applyPosteriorBias (recomputePosteriorCore s recomputeNow) biasNow

end Recompute

section Discount

def discountedWeight (gamma w : F) : F := F64.max (F64.min w discountWeightFloor) (w * gamma)

/-- Less precision, a fainter polynomial, and observations that count for less. -/
def applyDtsDiscount (s : GaussianThompsonState F) (gamma : F) : GaussianThompsonState F :=
  if !(decide (0.0 < gamma) && decide (gamma < 1.0)) then s
  else
    let precision := 1.0 / F64.max (F64Functions.powf s.posteriorStd 2.0) 1.0
    { s with
      posteriorStd := F64Functions.sqrt (1.0 / F64.max (precision * gamma) minPrecision)
      posteriorStdIsInt := false
      posteriorPrecision := fun i j => s.posteriorPrecision i j * gamma
      observations := s.observations.map fun o =>
        { o with weight := discountedWeight gamma o.weight } }

end Discount

end Thompson
