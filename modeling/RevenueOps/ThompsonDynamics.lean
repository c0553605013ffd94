import RevenueOps.ThompsonRecompute

/-! What a channel's posterior learns from: observation windows with their silence streak and the
probes below it, and the reflex to a rising floor. -/
namespace Thompson

open Arithmetic

variable {F : Type} [Add F] [Sub F] [Mul F] [Div F] [Neg F] [LT F] [LE F] [DecidableLT F]
  [DecidableLE F] [OfScientific F] [F64 F] [F64Functions F]

section Update

def isMeaningfulRate (s : GaussianThompsonState F) (revenueRate : F) (now : ℤ) : Bool :=
  decide (0.0 < revenueRate) &&
    decide (trickleResetFrac * effectivePositiveRateRef s now ≤ revenueRate)

def guardedHours (hours : F) : F := if !F64.isFinite hours ∨ hours ≤ 0.0 then 1.0 else hours

def guardedRate (revenueRate : F) : F :=
  if !F64.isFinite revenueRate ∨ revenueRate < 0.0 then 0.0 else revenueRate

def trackGap (s : GaussianThompsonState F) (now : ℤ) : F :=
  if 0 < s.lastMeaningfulTs ∧ s.lastMeaningfulTs < now then
    let gap := hoursBetween now s.lastMeaningfulTs
    if s.meaningfulGapEmaHours ≤ 0.0 then gap
    else (1.0 - meaningfulGapEmaAlpha) * s.meaningfulGapEmaHours + meaningfulGapEmaAlpha * gap
  else s.meaningfulGapEmaHours

/-- The average moves from the decayed reference, not from the stored one. -/
def earned (s : GaussianThompsonState F) (revenueRate : F) (now : ℤ) : GaussianThompsonState F :=
  { s with
    zeroRevenueStreak := 0
    zeroRunStartFee := 0.0
    zeroRunStartTs := 0
    positiveRateRef :=
      if s.positiveRateRef ≤ 0.0 then revenueRate
      else (1.0 - positiveRateEmaAlpha) * effectivePositiveRateRef s now +
        positiveRateEmaAlpha * revenueRate
    positiveRateRefTs := now
    meaningfulGapEmaHours := trackGap s now
    lastMeaningfulTs := now }

def silent (s : GaussianThompsonState F) (fee : F) (now : ℤ) : GaussianThompsonState F :=
  let fresh := decide (s.zeroRevenueStreak = 0)
  { s with
    zeroRunStartFee := if fresh then fee else s.zeroRunStartFee
    zeroRunStartTs := if fresh then now else s.zeroRunStartTs
    zeroRevenueStreak := s.zeroRevenueStreak + 1 }

def windowObservation (fee revenueRate weight : F) (now : ℤ) (timeBucket : String)
    (congested : Bool) : Observation F :=
  if congested then .withFlag fee revenueRate weight now timeBucket congestionObsFlag
  else .new fee revenueRate weight now timeBucket

/-- The fee below which no probe descends. -/
def probeFloorRef (s : GaussianThompsonState F) (now : ℤ) : F :=
  match earningRegionFee s now with
  | some anchor => if anchor ≤ 0.0 ∧ 0.0 ≤ anchor then s.zeroRunStartFee else anchor
  | none => s.zeroRunStartFee

/-- A long silence probes below the fee that was charged; the mean it looks at is the one before
this rebuild. -/
def probeFee (s : GaussianThompsonState F) (fee : F) (meaningful : Bool) (now : ℤ) : Option ℤ :=
  if !meaningful && decide (zeroRevenueStreakThreshold ≤ s.zeroRevenueStreak) &&
      decide (0.0 < s.zeroRunStartFee) then
    if zeroProbeFloorFrac * probeFloorRef s now ≤ s.posteriorMean then
      let probe := max 1 (F64.toI64 (fee * zeroProbeStepFrac))
      if F64.ofInt probe < fee then some probe else none
    else none
  else none

def probeObservations (probe : Option ℤ) (weight : F) (now : ℤ) (timeBucket : String) :
    List (Observation F) :=
  match probe with
  | some p => [.withFlag (F64.ofInt p) 0.0 weight now timeBucket zeroProbeFlag]
  | none => []

def pruneObservations (obs : List (Observation F)) : List (Observation F) :=
  obs.drop (obs.length - maxObservations)

def takeWindow (s : GaussianThompsonState F) (fee revenueRate hours : F) (timeBucket : String)
    (congested : Bool) (now : ℤ) : GaussianThompsonState F :=
  let rate := guardedRate revenueRate
  let weight := F64.min 1.0 (guardedHours hours / 6.0)
  let meaningful := isMeaningfulRate s rate now
  let counted := if meaningful then earned s rate now else silent s fee now
  let grown := { counted with
    observations := counted.observations ++
      [windowObservation fee rate weight now timeBucket congested] }
  { grown with
    observations := pruneObservations (grown.observations ++
      probeObservations (probeFee grown fee meaningful now) weight now timeBucket) }

def updatePosteriorAtTimes (s : GaussianThompsonState F) (fee revenueRate hours : F)
    (timeBucket : String) (congested : Bool) (now recomputeNow biasNow : ℤ) :
    GaussianThompsonState F :=
  if !F64.isFinite fee ∨ fee < 0.0 then s
  else
    recomputePosteriorAtTimes (takeWindow s fee revenueRate hours timeBucket congested now)
      recomputeNow biasNow

def updatePosterior (s : GaussianThompsonState F) (fee revenueRate hours : F)
    (timeBucket : String) (congested : Bool) (now : ℤ) : GaussianThompsonState F :=
  updatePosteriorAtTimes s fee revenueRate hours timeBucket congested now now now

end Update

section Vegas

/-- A floor that has risen over the mean goes the way of a nudge. -/
def applyVegasAdjustment (s : GaussianThompsonState F) (vegasMultiplier newFloor : F) (now : ℤ) :
    GaussianThompsonState F :=
  if vegasMultiplier ≤ 1.2 then s
  else
    let widened := { s with
      posteriorStd := F64.max minStd (s.posteriorStd * F64.min vegasMultiplier 2.0)
      posteriorStdIsInt := false }
    if s.posteriorMean < newFloor then recordPosteriorNudge widened newFloor 0.43 now else widened

end Vegas

end Thompson
