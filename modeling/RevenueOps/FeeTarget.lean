import RevenueOps.FeeAdjust

/-! The target of one channel's adjustment. Congestion goes before exploration, and exploration
before the Thompson sample with its PID, drain, market and silence corrections. Each of them
records the observation window into the posterior at most once. -/
namespace FeeCycle

open KeyedTable PeerPolicies RustNumber RustFloat FallibleState

variable {ω τ π : Type} (K : Kernel τ π) (d : CycleDeps ω τ π)

structure Scene where
  ctx : AdjustCtx
  now : ℤ
  isCongested : Bool
  isUnderExploration : Bool
  rawChainFee : ℤ
  currentFeePpm : ℤ
  wokeFromSleep : Bool
  wakeReason : String
  obs : Observation
  revenueRate : Float
  rails : Rails
  profileName : String
  profile : FeeProfileSettings
  prevCongestionActive : Bool
  prevTrendDirection : ℤ

namespace Scene

variable (sc : Scene)

def channelId : String := sc.ctx.row.channelId
def flowState : String := sc.ctx.row.state
def capacity : ℤ := channelCapacity sc.ctx.info
def spendable : Float := asF64 (channelSpendable sc.ctx.info)
def outbound : Float := outboundRatio sc.ctx.info
def context : Context := contextWithValues sc.now sc.outbound sc.flowState
def window : Window := ⟨sc.channelId, sc.obs.cursor, sc.now⟩

/-- Only a fee above zero and a routable window say something about demand. -/
def informative (rate : Float) : Bool :=
  0 < sc.rawChainFee && !isUnroutableZeroWindow rate sc.spendable

end Scene

structure Target where
  newFeePpm : ℤ
  decisionReason : String
  newDirection : ℤ
  stepPpm : ℤ
  volatilityReset : Bool
  upwardProbePreCapPpm : Option ℤ
  rawDtsTargetPpm : Option ℤ
  postPidTargetPpm : Option ℤ
  boundedTargetPpm : Option ℤ
  blendedTargetPpm : Option ℤ
  targetBlendRatio : Float
  boundReason : String
  deltaCapReason : String
  deltaCapPpm : ℤ
  sparseDataConservative : Bool
  explorationMode : String
  zeroFlowGuardReason : Option String

/-- A target before the corrections of the sample: no diagnostics yet. -/
def Target.plain (sc : Scene) (newFeePpm : ℤ) (decisionReason : String) : Target where
  newFeePpm := newFeePpm
  decisionReason := decisionReason
  newDirection := (newFeePpm - sc.currentFeePpm).sign
  stepPpm := |newFeePpm - sc.currentFeePpm|
  volatilityReset := false
  upwardProbePreCapPpm := none
  rawDtsTargetPpm := none
  postPidTargetPpm := none
  boundedTargetPpm := none
  blendedTargetPpm := none
  targetBlendRatio := sc.profile.normalTargetBlendRatio
  boundReason := "none"
  deltaCapReason := "none"
  deltaCapPpm := 0
  sparseDataConservative := false
  explorationMode := "none"
  zeroFlowGuardReason := none

section Record

/-- Applying the bias reads a time of its own, where there is one. -/
def biasTime (thompson : τ) (recomputeNow : ℤ) : Ask ω ℤ :=
  if K.posteriorBiasIsEmpty thompson then pure recomputeNow
  else clockNow d "thompson.posterior_bias.apply"

/-- The one place where a window's revenue goes into a posterior. -/
def updatePosterior (sc : Scene) (rate : Float) (congested : Bool) : OnChannel ω τ π Unit := do
  let updateNow ← asking (clockNow d "thompson.posterior.update")
  let recomputeNow ← asking (clockNow d "thompson.posterior.recompute")
  let thompson ← Eff.read fun s => s.fee.thompson
  let biasNow ← asking (biasTime K d thompson recomputeNow)
  Eff.modify fun s =>
    { s with fee := { s.fee with thompson := K.updatePosteriorAtTimes s.fee.thompson
                                  (asF64 sc.rawChainFee) rate sc.obs.hoursElapsed
                                  sc.context.timeBucket congested updateNow recomputeNow biasNow }
             world := { s.world with windows := s.world.windows ++ [sc.window] } }

/-- A congested or exploring channel records its raw rate. -/
def recordRaw (sc : Scene) (congested : Bool) : OnChannel ω τ π Unit :=
  if sc.informative sc.revenueRate then updatePosterior K d sc sc.revenueRate congested else pure ()

def updateContextual (sc : Scene) (adjustedRate : Float) : OnChannel ω τ π Unit := do
  let contextualNow ← asking (clockNow d "thompson.contextual.update")
  Eff.modify fun s =>
    { s with fee := { s.fee with thompson := K.updateContextual s.fee.thompson sc.context.key
                                  (asF64 sc.rawChainFee) adjustedRate sc.context.timeBucket
                                  contextualNow } }

def recordWindow (sc : Scene) (adjustedRate : Float) : OnChannel ω τ π Unit :=
  if sc.informative adjustedRate then do
    updatePosterior K d sc adjustedRate sc.prevCongestionActive
    updateContextual K d sc adjustedRate
  else pure ()

end Record

section Congestion

def countQuiet (c : ChannelCycleState) : ChannelCycleState :=
  if c.congestionActive then
    if 2 ≤ c.congestionQuietCycles + 1 then
      { c with congestionActive := false, congestionEntryFeePpm := 0, congestionQuietCycles := 0 }
    else { c with congestionQuietCycles := c.congestionQuietCycles + 1 }
  else c

def enterCongestion (currentFeePpm : ℤ) (c : ChannelCycleState) : ChannelCycleState :=
  { c with congestionActive := true
           congestionEntryFeePpm :=
             if c.congestionActive = false ∨ c.congestionEntryFeePpm ≤ 0 then max currentFeePpm 1
             else c.congestionEntryFeePpm }

def congestionCap (sc : Scene) (entryFeePpm : ℤ) : ℤ :=
  let episode := max (asI64 (asF64 entryFeePpm * 4.0)) (entryFeePpm + 250)
  max (min (min sc.rails.ceilingPpm episode)
    (max (asI64 (asF64 sc.currentFeePpm * 2.0)) (sc.currentFeePpm + 250))) sc.currentFeePpm

/-- The first trip jumps to the cap, a follow-up is blended and damped. -/
def congestionMove (sc : Scene) (posteriorStd : Float) (firstTrip : Bool) (cap : ℤ) : Target :=
  if firstTrip then
    let fee := max sc.rails.floorPpm (min sc.rails.ceilingPpm cap)
    { Target.plain sc fee "CONGESTION" with boundedTargetPpm := some fee }
  else
    let floor := max sc.rails.floorPpm (min (asI64 (asF64 sc.currentFeePpm * 1.5)) cap)
    let ceiling := if sc.rails.ceilingPpm ≤ floor then floor + 10 else sc.rails.ceilingPpm
    let bounded := max floor (min ceiling cap)
    let (blended, ratio) := K.blendFeeTarget sc.currentFeePpm bounded sc.wokeFromSleep false
      posteriorStd sc.profileName sc.profile
    let (applied, capReason, capPpm) := K.applyDampedFeeTarget sc.currentFeePpm blended
      sc.wokeFromSleep sc.profile
    { Target.plain sc applied "CONGESTION" with
      boundedTargetPpm := some bounded
      blendedTargetPpm := some blended
      targetBlendRatio := ratio
      deltaCapReason := capReason
      deltaCapPpm := capPpm }

def congestionTarget (sc : Scene) : OnChannel ω τ π Target := do
  Eff.modify fun s => { s with cycle := { s.cycle with congestionQuietCycles := 0 } }
  recordRaw K d sc sc.prevCongestionActive
  let firstTrip ← Eff.read fun s => !s.cycle.congestionActive
  Eff.modify fun s => { s with cycle := enterCongestion sc.currentFeePpm s.cycle }
  let entry ← Eff.read fun s => s.cycle.congestionEntryFeePpm
  let std ← Eff.read fun s => K.posteriorStd s.fee.thompson
  pure (congestionMove K sc std firstTrip (congestionCap sc entry))

end Congestion

section Exploration

def explorationTarget (sc : Scene) : OnChannel ω τ π Target := do
  recordRaw K d sc false
  let sparse := isSparseDataChannel 0 sc.obs.forwardCount sc.obs.hoursElapsed sc.revenueRate
    sc.profile
  if 0 < sc.obs.volumeSinceSats ∨ 0 < sc.obs.forwardCount then do
    asking (ask (d.evidence.clearExplorationFlag sc.channelId))
    let fee := K.explorationFeeTarget (max sc.currentFeePpm sc.rails.floorPpm) sc.rails.floorPpm
      d.cfg.minFeePpm sparse (some sc.rails.effectiveMinFeePpm)
    pure { Target.plain sc fee "LOW_FEE_EXPLORATION_SUCCESS" with
      sparseDataConservative := sparse
      explorationMode := "bounded_low_fee_success" }
  else do
    let fee := K.explorationFeeTarget sc.currentFeePpm sc.rails.floorPpm d.cfg.minFeePpm sparse
      (some sc.rails.effectiveMinFeePpm)
    let cycle ← Eff.read ChannelRun.cycle
    pure { Target.plain sc fee "LOW_FEE_EXPLORATION" with
      newDirection := cycle.trendDirection
      stepPpm := cycle.stepPpm
      sparseDataConservative := sparse
      explorationMode := "bounded_low_fee" }

end Exploration

section Signal

structure Signal where
  observationCount : ℤ
  sparse : Bool
  adjustedRate : Float
  rateChangeRatio : Float
  volatilityReset : Bool

def expectedDemand (row : ChannelStateRow) : Float :=
  let kr := row.kalmanFlowRatio.getD 0.0
  let kv := row.kalmanVelocity.getD 0.0
  if kr.isFinite && kv.isFinite then kr.abs + (kv * 24.0).abs else 0.5

/-- How far the revenue rate moved, and whether that is a volatile move. -/
def rateChange (ts : ChannelFeeState τ π) (revenueRate : Float) : Float × Bool :=
  if 0 < ts.lastUpdate ∧ 0.0 < ts.lastRevenueRate then
    let ratio := (revenueRate - ts.lastRevenueRate).abs / maxF64 1.0 ts.lastRevenueRate
    (ratio, 0.50 < ratio)
  else if 0 < ts.lastUpdate ∧ ts.lastRevenueRate ≤ 0.0 ∧ 0.0 < revenueRate then (0.50 + 1.0, true)
  else (0.0, false)

def signal (sc : Scene) (ts : ChannelFeeState τ π) : Signal :=
  let count := K.observationCount ts.thompson
  let (ratio, reset) := rateChange ts sc.revenueRate
  ⟨count, isSparseDataChannel count sc.obs.forwardCount sc.obs.hoursElapsed
    sc.revenueRate sc.profile,
    sc.revenueRate / K.kalmanDemandFactor (expectedDemand sc.ctx.row), ratio, reset⟩

/-- The count of stable cycles after this window, and whether it puts the channel to sleep. -/
def stability (sc : Scene) (sig : Signal) (ts : ChannelFeeState τ π) : ℤ × Bool :=
  let before := if sig.volatilityReset then 0 else ts.stableCycles
  if 0 < ts.lastUpdate ∧ sig.rateChangeRatio < 0.01 then
    (before + 1, 3 ≤ before + 1 ∧
      ¬ (sc.revenueRate ≤ 0.0 ∧ sc.rails.floorPpm < sc.currentFeePpm))
  else if 0.01 ≤ sig.rateChangeRatio then (0, false)
  else (before, false)

def enterSleep (cfg : FeeCfgSnapshot) (sc : Scene) (s : ChannelRun ω τ π) : ChannelRun ω τ π :=
  let sleepUntil := sc.now + cfg.feeInterval * 2
  { s with
    fee := { s.fee with isSleeping := true
                        sleepUntil := sleepUntil
                        lastRevenueRate := sc.revenueRate
                        lastFeePpm := sc.currentFeePpm
                        lastVolumeSats := sc.obs.volumeSinceSats
                        lastUpdate := sc.now }
    cycle := { s.cycle with isSleeping := true
                            sleepUntil := sleepUntil
                            stableCycles := s.fee.stableCycles
                            lastUpdate := sc.now
                            lastRevenueRate := sc.revenueRate
                            lastFeePpm := sc.currentFeePpm } }

end Signal

section Market

/-- The median of the neighbours, and the gossip rows if they were needed for it. -/
def neighborMedian (sc : Scene) : Ask ω (Option (List GossipRow) × Option ℤ) := do
  let peerId := sc.ctx.row.peerId
  match ← ask (d.evidence.capturedNeighborFeeMedian peerId) with
  | some median => pure (none, median)
  | none => do
    let rows ← ask (d.evidence.gossipChannels peerId)
    match ← ask (d.evidence.capturedNeighborFeeMedian peerId) with
    | some median => pure (some rows, median)
    | none => do
      let ourId ← ask d.evidence.ourNodeId
      let channels := (rows.filter GossipRow.active).map (·.toGossipChannel peerId)
      pure (some rows, K.neighborFeeMedian channels ourId d.minCompetitors sc.now)

def competitiveUndercut (rows : List GossipRow) (ourId : String) (median : Option ℤ)
    (invertRank : Bool) : Float :=
  match channelCapacityRank rows ourId with
  | none => 0.10
  | some (rank, count) => K.competitiveUndercutPct rank count (median.getD 100) invertRank

def Learn.asking {α : Type} (m : Ask ω α) : Learn ω τ π α := Eff.on LearnRun.outside m

def exploring (currentFeePpm : ℤ) (thompson : τ) : Bool :=
  K.explorationStdThreshold currentFeePpm < K.posteriorStd thompson

def nudge (median weight : Float) : Learn ω τ π Unit := do
  let nudgeNow ← Learn.asking (clockNow d "thompson.posterior_nudge")
  Eff.modify fun s =>
    { s with thompson := K.recordPosteriorNudge s.thompson median weight nudgeNow }

/-- Undercut unless the channel is depleted, the target is under the floor or it explores. -/
def undercut (sc : Scene) (isExploring : Bool) (target postPid : ℤ) : ℤ :=
  if sc.outbound < 0.35 ∨ target ≤ sc.rails.floorPpm ∨ isExploring then postPid
  else min postPid target

def competitionAware (sc : Scene) (rows : List GossipRow) (ourId : String) (target postPid : ℤ) :
    Learn ω τ π ℤ := do
  let peerId := sc.ctx.row.peerId
  let preserve ← match ← Learn.asking
    (ask (d.evidence.capturedNeighborFeePercentile peerId 0.25)) with
    | some value => pure value
    | none => pure (K.neighborFeePercentile ((rows.filter GossipRow.active).map
        (·.toGossipChannel peerId)) ourId 0.25 d.minCompetitors sc.now)
  let isExploring ← Eff.read fun s => exploring K sc.currentFeePpm s.thompson
  pure (if preserve.any (postPid < ·) then postPid else undercut sc isExploring target postPid)

def undercutMode (sc : Scene) (sparse : Bool) (target postPid : ℤ) : Learn ω τ π ℤ := do
  let thompson ← Eff.read LearnRun.thompson
  let biased := sc.rails.floorPpm < target && 0.35 ≤ sc.outbound && sparse &&
    asF64 target < K.posteriorMean thompson && 50.0 ≤ K.posteriorStd thompson
  if biased then nudge K d (asF64 target) 0.10 else pure ()
  pure (undercut sc (exploring K sc.currentFeePpm thompson) target postPid)

def marketMode (sc : Scene) (sparse : Bool) (rows : List GossipRow) (ourId : String)
    (median : Option ℤ) (postPid : ℤ) : Learn ω τ π ℤ :=
  let mode := d.cfg.marketFeeMode
  let pct := competitiveUndercut K rows ourId median (mode = "premium")
  let m := asF64 (median.getD 0)
  if mode = "premium" then
    let target := asI64 (m * (1.0 + pct))
    pure (if target ≤ sc.rails.floorPpm then postPid else max postPid (min d.cfg.maxFeePpm target))
  else if mode = "match" then pure (min d.cfg.maxFeePpm (median.getD 0))
  else if mode = "competition_aware" then
    competitionAware K d sc rows ourId (asI64 (m * (1.0 - pct))) postPid
  else undercutMode K d sc sparse (asI64 (m * (1.0 - pct))) postPid

/-- A target far above the median is pulled towards it, unless the posterior is still wide. -/
def medianPull (sc : Scene) (thompson : τ) (median : Option ℤ) (postPid : ℤ) : ℤ :=
  if d.cfg.marketFeeMode ∈ ["undercut", "match", "competition_aware"] ∧
      exploring K sc.currentFeePpm thompson = false ∧ median.getD 0 * 2 < postPid then
    asI64 (asF64 postPid * 0.8 + asF64 (median.getD 0) * 0.2)
  else postPid

def marketTarget (sc : Scene) (sparse : Bool) (postPid : ℤ) : Learn ω τ π ℤ := do
  let (gossip, median) ← Learn.asking (neighborMedian K d sc)
  if median.any (sc.rails.floorPpm < ·) then do
    let thompson ← Eff.read LearnRun.thompson
    let pulled := medianPull K d sc thompson median postPid
    if sparse && exploring K sc.currentFeePpm thompson then
      nudge K d (asF64 (median.getD 0)) 0.15
    else pure ()
    let rows ← match gossip with
      | some rows => pure rows
      | none => Learn.asking (ask (d.evidence.gossipChannels sc.ctx.row.peerId))
    let ourId ← Learn.asking (ask d.evidence.ourNodeId)
    marketMode K d sc sparse rows ourId median pulled
  else pure postPid

/-- A target below what the channel costs to rebalance moves part of the way up. -/
def rebalanceNudge (sc : Scene) (postPid : ℤ) : ℤ :=
  let cost := sc.rails.rebalanceCostPpm
  if 0 < cost ∧ postPid < cost then
    let strength :=
      if 10.0 ≤ sc.revenueRate then 0.30
      else if 1.0 ≤ sc.revenueRate then 0.15 + 0.15 * (sc.revenueRate / 10.0)
      else 0.05
    asI64 (asF64 postPid * (1.0 - strength) + asF64 cost * strength)
  else postPid

structure Supported where
  postPid : ℤ
  capPpm : Option ℤ
  upwardProbePreCapPpm : Option ℤ

/-- The stretch of the supported ceiling by an upward probe, with the cap before it. -/
def upwardProbe (postPid : ℤ) (cap : Option Float) : Learn ω τ π (Option Float × Option ℤ) :=
  match cap with
  | none => pure (none, none)
  | some c =>
    if c < asF64 postPid then do
      let probeNow ← Learn.asking (clockNow d "thompson.upward_probe_cap")
      let thompson ← Eff.read LearnRun.thompson
      match K.maybeUpwardProbeCap thompson probeNow c with
      | some probe => if c < probe then pure (some probe, some (asI64 c)) else pure (some c, none)
      | none => pure (some c, none)
    else pure (some c, none)

def supportedCeiling (sc : Scene) (postPid : ℤ) : Learn ω τ π Supported := do
  let supportedNow ← Learn.asking (clockNow d "thompson.supported_fee_ceiling")
  let thompson ← Eff.read LearnRun.thompson
  let (cap, preCap) ← upwardProbe K d postPid
    (K.supportedFeeCeiling thompson supportedNow (some (asF64 sc.rails.floorPpm)))
  let capPpm := cap.map fun c => max 1 (asI64 c)
  let capped := cap.any (· < asF64 postPid)
  pure ⟨if capped then capPpm.getD postPid else postPid, capPpm, preCap⟩

end Market

section Sample

structure Sampled where
  dtsFee : ℤ
  contextualSampleUsed : Bool

def sampleFee (sc : Scene) : Learn ω τ π Sampled := do
  let count ← Eff.read fun s => K.contextCount s.thompson sc.context.key
  let fee ← (fun s =>
    let r :=
      d.sampleFeeContextual s.thompson sc.context.key sc.rails.floorPpm sc.rails.ceilingPpm s.env
    (Outcome.ofExcept r.1, { s with thompson := r.2.1, env := r.2.2 }))
  pure ⟨fee, count.any (minObservations ≤ ·)⟩

def discount (sc : Scene) (sparse : Bool) : OnChannel ω τ π Unit := do
  let gamma := if sparse then sc.profile.dtsSparseDiscountGamma else sc.profile.dtsDiscountGamma
  let vegas := sc.rails.vegasMultiplier
  Eff.modify fun s =>
    let thompson := K.applyDtsDiscount s.fee.thompson gamma
    if 1.2 < vegas then
      { s with fee := { s.fee with
          thompson := K.applyVegasAdjustment thompson vegas (asF64 sc.rails.baseFloorPpm) sc.now
          lastVegasMultiplier := vegas } }
    else { s with fee := { s.fee with thompson := thompson } }

def labelSample (sc : Scene) (sampled : Sampled) (s : ChannelRun ω τ π) : ChannelRun ω τ π :=
  { s with fee := { s.fee with
      lastFeeProfile := sc.profileName
      lastContextKey := sc.context.key
      lastTimeBucket := sc.context.timeBucket
      lastCorridorRole := sc.context.corridorRole
      lastContextualSampleUsed := sampled.contextualSampleUsed } }

structure Priced where
  pidMultiplier : Float
  supported : Supported

/-- PID and drain, the market, the cost of rebalancing, and the supported ceiling. -/
def price (sc : Scene) (sparse : Bool) (dtsFee : ℤ) : Learn ω τ π Priced := do
  let pidNow ← Learn.asking (clockNow d "pid.calculate")
  let multiplier ← (fun s =>
    let (m, pid) := K.calculateMultiplier s.pid sc.outbound sc.capacity sc.flowState pidNow
    (.ok m, { s with pid := pid }))
  let afterPid := asI64 (asF64 dtsFee * multiplier)
  let drain := K.drainFeeMultiplier sc.outbound sc.obs.forwardCount d.cfg.highLiquidityThreshold
    (sc.ctx.nodeDrainBiasEffectiveCap.getD d.cfg.drainFeeDiscountMax)
  let drained := if drain != 1.0 then asI64 (asF64 afterPid * drain) else afterPid
  let market ← marketTarget K d sc sparse drained
  let supported ← supportedCeiling K d sc (rebalanceNudge sc market)
  pure ⟨multiplier, supported⟩

/-- The blend starts at the pending target where that lies on the way to the new one. -/
def blendAnchor (sc : Scene) (bounded : ℤ) (c : ChannelCycleState) : ℤ × ChannelCycleState :=
  if 0 < c.pendingTargetPpm then
    let ref := c.lastBroadcastFeePpm
    let backInBand := decide (0 < ref) && asF64 |bounded - ref| ≤ asF64 ref * 0.05
    let candidate := max sc.rails.floorPpm (min sc.rails.ceilingPpm c.pendingTargetPpm)
    let onPath := decide (min sc.currentFeePpm bounded ≤ candidate) &&
      decide (candidate ≤ max sc.currentFeePpm bounded)
    if backInBand || !onPath then (sc.currentFeePpm, { c with pendingTargetPpm := 0 })
    else (candidate, c)
  else (sc.currentFeePpm, c)

/-- The guard against raising a fee on stale belief while the channel is silent. -/
def zeroFlowGuard (sc : Scene) (sig : Signal) (blended : ℤ) (capPpm : Option ℤ) (thompson : τ) :
    Ask ω (ℤ × Option String) := do
  let earningNow ← clockNow d "thompson.earning_region"
  let cycleHours := maxF64 (asF64 (feeIntervalOr d.cfg)) 60.0 / 3600.0
  let (guardStreak, downshiftStreak) :=
    K.zeroFlowStreakThresholds (K.meaningfulGapEmaHours thompson) cycleHours
  let meaningfulNow ← clockNow d "thompson.meaningful_rate"
  pure (K.applyZeroFlowRatchetGuard
    { currentFee := sc.currentFeePpm
      targetFee := blended
      minFee := sc.rails.floorPpm
      zeroRevenueStreak := K.zeroRevenueStreak thompson
      forwardsSinceUpdate := sc.obs.forwardCount
      revenueRate := sig.adjustedRate
      supportedFeeCeiling := capPpm.map asF64
      earningAnchorPpm := K.earningRegionFee thompson earningNow
      guardStreak := some guardStreak
      downshiftStreak := some downshiftStreak
      rateIsMeaningful := some (K.isMeaningfulRate thompson sig.adjustedRate meaningfulNow) })

def dtsReason (sc : Scene) (dtsFee : ℤ) (pidMultiplier : Float) (guard : Option String) : String :=
  "dts_pid (dts=" ++ toString dtsFee ++ ", pid=" ++ K.fixed 2 pidMultiplier ++ ", flow=" ++
    sc.flowState ++ guard.elim "" (", guard=" ++ ·) ++ ")"

def keepTarget (sc : Scene) (t : Target) (s : ChannelRun ω τ π) : ChannelRun ω τ π :=
  { s with
    fee := { s.fee with lastVolumeSats := sc.obs.volumeSinceSats }
    cycle := { s.cycle with lastRevenueRate := sc.revenueRate
                            lastFeePpm := sc.currentFeePpm
                            trendDirection := t.newDirection
                            stepPpm := t.stepPpm
                            forwardCountSinceUpdate := sc.obs.forwardCount
                            lastVolumeSats := sc.obs.volumeSinceSats } }

def settleSample (sc : Scene) (sig : Signal) (dtsFee : ℤ) (p : Priced) :
    OnChannel ω τ π Target := do
  let postPid := p.supported.postPid
  let bounded := max sc.rails.floorPpm (min sc.rails.ceilingPpm postPid)
  let anchor ← (fun s =>
    let (anchor, cycle) := blendAnchor sc bounded s.cycle
    (.ok anchor, { s with cycle := cycle }))
  let thompson ← Eff.read fun s => s.fee.thompson
  let std := K.posteriorStd thompson
  let (blended, ratio) := K.blendFeeTarget anchor bounded sc.wokeFromSleep sig.sparse
    (if sig.observationCount < minObservations then maxF64 std 200.0 else std) sc.profileName
    sc.profile
  let (guarded, guard) ← asking (zeroFlowGuard K d sc sig blended p.supported.capPpm thompson)
  let (applied, capReason, capPpm) :=
    K.applyDampedFeeTarget sc.currentFeePpm guarded sc.wokeFromSleep sc.profile
  let target : Target :=
    { Target.plain sc applied (dtsReason K sc dtsFee p.pidMultiplier guard) with
      volatilityReset := sig.volatilityReset
      upwardProbePreCapPpm := p.supported.upwardProbePreCapPpm
      rawDtsTargetPpm := some dtsFee
      postPidTargetPpm := some postPid
      boundedTargetPpm := some bounded
      blendedTargetPpm := some guarded
      targetBlendRatio := ratio
      boundReason := if bounded ≠ postPid then
          (if postPid < sc.rails.floorPpm then "floor" else "ceiling") else "none"
      deltaCapReason := capReason
      deltaCapPpm := capPpm
      sparseDataConservative := sig.sparse
      zeroFlowGuardReason := guard }
  Eff.modify (keepTarget sc target)
  pure target

/-- The sampled target once the window is recorded. -/
def sampleTarget (sc : Scene) (sig : Signal) : OnChannel ω τ π Target := do
  discount K sc sig.sparse
  let sampled ← Eff.on ChannelRun.learning (sampleFee K d sc)
  Eff.modify (labelSample sc sampled)
  let priced ← Eff.on ChannelRun.learning (price K d sc sig.sparse sampled.dtsFee)
  settleSample K d sc sig sampled.dtsFee priced

/-- No value when the window put the channel to sleep. -/
def dtsTarget (sc : Scene) : OnChannel ω τ π (Option Target) := do
  let ts ← Eff.read ChannelRun.fee
  let sig := signal K sc ts
  let (stableCycles, sleeps) := stability sc sig ts
  Eff.modify fun s => { s with fee := { s.fee with stableCycles := stableCycles } }
  recordWindow K d sc sig.adjustedRate
  if sleeps then do
    Eff.modify (enterSleep d.cfg sc)
    pure none
  else do
    let target ← sampleTarget K d sc sig
    pure (some target)

end Sample

def decideTarget (sc : Scene) : OnChannel ω τ π (Option Target) := do
  if sc.isCongested then do
    let target ← congestionTarget K d sc
    pure (some target)
  else do
    Eff.modify fun s => { s with cycle := countQuiet s.cycle }
    if sc.isUnderExploration then do
      let target ← explorationTarget K d sc
      pure (some target)
    else dtsTarget K d sc

end FeeCycle
