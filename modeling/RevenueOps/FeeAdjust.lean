import RevenueOps.FeeCycleState

/-! One channel's adjustment: sleep check, observation window, rails, the target by priority
(congestion, exploration, Thompson sample with PID), the two deadbands, and the change itself.
The diagnostics of the decision trace are left out; the texts that reach the governor are not. -/
namespace FeeCycle

open KeyedTable PeerPolicies RustNumber RustFloat FallibleState

section Helpers

def feeIntervalOr (cfg : FeeCfgSnapshot) : ℤ :=
  if cfg.feeInterval ≠ 0 then cfg.feeInterval else 1800

def hoursBetween (now since : ℤ) : Float := asF64 (now - since) / 3600.0

def utcHour (now : ℤ) : ℤ := now % 86400 / 3600

structure Context where
  key : String
  timeBucket : String
  corridorRole : String

def contextWithValues (now : ℤ) (outboundRatio : Float) (flowState : String) : Context :=
  let balance :=
    if outboundRatio < 0.15 then "depleted"
    else if outboundRatio < 0.35 then "low"
    else if outboundRatio < 0.65 then "balanced"
    else if outboundRatio < 0.85 then "high"
    else "saturated"
  let bucket := if utcHour now < 6 then "low" else if 18 ≤ utcHour now then "peak" else "normal"
  let role := if flowState ∈ ["sink", "dormant", "unknown"] then "S" else "P"
  ⟨balance ++ ":" ++ bucket ++ ":" ++ role, bucket, role⟩

def liquidityBucket (outboundRatio : Float) : String :=
  if outboundRatio < 0.1 then "very_low"
  else if outboundRatio < 0.25 then "low"
  else if outboundRatio < 0.4 then "balanced_low"
  else if outboundRatio < 0.6 then "balanced"
  else if outboundRatio < 0.75 then "balanced_high"
  else if outboundRatio < 0.9 then "high"
  else "very_high"

def minObservations : ℤ := 5

def isSparseDataChannel (observationCount forwardCount : ℤ) (hoursElapsed revenueRate : Float)
    (profile : FeeProfileSettings) : Bool :=
  observationCount < minObservations || forwardCount < profile.minForwardsForSignal ||
    (1.0 ≤ hoursElapsed && revenueRate ≤ 0.0)

/-- How many active competitors are larger than our channel, and how many there are. -/
def channelCapacityRank (rows : List GossipRow) (ourId : String) : Option (ℕ × ℕ) :=
  let sized := rows.filter fun r => 0 < r.capacityForRank
  let ours :=
    (sized.filter fun r => r.source = ourId).foldl (fun m r => max m r.capacityForRank) (0 : ℤ)
  let competitors := sized.filter fun r => r.source ≠ ourId && r.active
  if competitors.isEmpty ∨ ours ≤ 0 then none
  else some ((competitors.filter fun r => ours < r.capacityForRank).length, competitors.length)

def channelRebalanceCostPpm (flowState : String) (history : List RebalanceCostSample)
    (now : ℤ) : ℤ :=
  if flowState = "sink" ∨ flowState = "dormant" then 0
  else
    let recent := history.filter fun c => now - 30 * 86400 ≤ c.timestamp
    let cost := (recent.map RebalanceCostSample.costSats).sum
    let volume := (recent.map RebalanceCostSample.amountSats).sum
    if volume ≤ 0 ∨ cost ≤ 0 then 0 else min (asI64 (asF64 (cost * 1000000) / asF64 volume)) 5000

/-- A zero-revenue window of a channel that could not have routed says nothing. -/
def isUnroutableZeroWindow (revenueRate spendableSats : Float) : Bool :=
  revenueRate ≤ 0.0 && spendableSats < 25000.0

def isFlowBalancedRouter (capacitySats : ℤ) (window : Option FlowWindow) : Bool :=
  match window with
  | none => false
  | some w =>
    let gross := w.outSats + w.inSats
    0 < capacitySats && 0 < gross && !(asF64 gross < asF64 capacitySats * 0.25) &&
      asF64 |w.outSats - w.inSats| / asF64 gross ≤ 0.33

/-- The class-aware floor: a saturated or source channel may go below the configured minimum. -/
def effectiveMinFeePpm (cfg : FeeCfgSnapshot) (flowState : String) (outboundRatio : Float)
    (capacitySats : ℤ) (window : Option FlowWindow) : ℤ :=
  if cfg.minFeePpmSaturated < 0 ∨ cfg.minFeePpm ≤ cfg.minFeePpmSaturated then cfg.minFeePpm
  else if flowState = "source" ∨ 0.85 ≤ outboundRatio then
    if isFlowBalancedRouter capacitySats window then cfg.minFeePpm else cfg.minFeePpmSaturated
  else cfg.minFeePpm

def feeMultiplierBounds (p : PeerPolicy) : Float × Float :=
  let lo := clampF64 (p.feeMultiplierMin.getD 0.1) 0.1 5.0
  let hi := clampF64 (p.feeMultiplierMax.getD 5.0) 0.1 5.0
  if hi < lo then (hi, lo) else (lo, hi)

/-- The part of a decision reason before its first parenthesis. -/
def reasonCategory (s : String) : String := String.ofList (before s.toList)
where before : List Char → List Char
  | [] => []
  | c :: cs => if c = ' ' ∧ cs.head? = some '(' then [] else c :: before cs

def signedText (n : ℤ) : String := if 0 ≤ n then "+" ++ toString n else toString n
def optIntText (n : Option ℤ) : String := n.elim "None" toString
def pyBoolStr (b : Bool) : String := if b then "True" else "False"

end Helpers

variable {ω τ π : Type} (K : Kernel τ π) (d : CycleDeps ω τ π)

section Submit

structure Submitted where
  success : Bool
  decision : SetFeeDecision
  governed : Option GovernedTrace

def consult (authorize : FeeAuthorizationRequest → Reply ω FeeAuthorizationResult)
    (request : FeeAuthorizationRequest) : Broadcast ω FeeAuthorizationResult := fun s =>
  match authorize request s.env with
  | (.ok result, w) => (.ok result, { s with env := w, asked := s.asked ++ [(request, result)] })
  | (.error e, w) => (.err e, { s with env := w })

/-- The governor is asked only where it is enabled and present; elsewhere the decision stands. -/
def authorizeFee (request : FeeExecutionRequest) (reason : String) (code : FeeReasonCode) :
    Broadcast ω (Bool × Option GovernedTrace) :=
  let pre := decideSetChannelFee request.decision d.cfg none
  match d.authorizer with
  | some authorize =>
    if pre.success && d.cfg.econGovernorFeesEnabled then do
      let now ← Eff.on World.outside (clockNow d "governor.authorize")
      let result ← consult authorize ⟨request.decision.channelId, pre.clampedFeePpm,
        some request.oldFeePpm, reason, some code.asStr, now⟩
      pure (result.authorized, result.trace)
    else pure (pre.success, none)
  | none => pure (pre.success, none)

def executeFee (request : FeeExecutionRequest) : Broadcast ω SetFeeDecision :=
  match d.executor with
  | .recording => do
    let (decision, action) ← Eff.ofExcept (recordedExecution request d.cfg)
    Eff.modify fun s => { s with actions := s.actions ++ action.toList }
    pure decision
  | .other execute => Eff.on World.outside (ask (execute request d.cfg))

/-- Clamp, ask the governor, execute: what each of the three paths to a fee change does. -/
def submit (request : FeeExecutionRequest) (reason : String) (code : FeeReasonCode) :
    Broadcast ω Submitted := do
  let (authorized, governed) ← authorizeFee d request reason code
  let decision ← executeFee d { request with authorized := authorized }
  pure ⟨authorized && decision.success, decision, governed⟩

end Submit

structure FeeAdjustmentRec where
  channelId : String
  peerId : String
  oldFeePpm : ℤ
  newFeePpm : ℤ
  reason : String
  reasonCode : String

structure AdjustResult where
  adjustment : Option FeeAdjustmentRec
  governed : Option GovernedTrace

structure AdjustCtx where
  row : ChannelStateRow
  info : ChannelInfo
  chainCosts : Option ChainCosts
  policy : Option PeerPolicy
  forwardCountHint : Option ℤ
  preLastUpdate : ℤ
  nodeDrainBiasEffectiveCap : Option Float
  forceRepriceReason : Option String

section Window

def asking {α : Type} (m : Ask ω α) : OnChannel ω τ π α := Eff.on ChannelRun.outside m

def wakeBoth (s : ChannelRun ω τ π) : ChannelRun ω τ π :=
  { s with cycle := s.cycle.wakeUp, fee := s.fee.wakeUp }

/-- Whether the channel woke, and the reason; no value while it sleeps on. -/
def sleepCheck (ctx : AdjustCtx) (isCongested : Bool) (now : ℤ) :
    OnChannel ω τ π (Option (Bool × String)) := do
  let ts ← Eff.read ChannelRun.fee
  if ts.isSleeping then
    match ctx.forceRepriceReason with
    | some reason => do
      Eff.modify wakeBoth
      pure (some (true, reason))
    | none =>
      if ts.sleepUntil < now then do
        Eff.modify wakeBoth
        pure (some (true, "sleep_timer_expired"))
      else do
        let volume ← asking (ask (d.evidence.volumeSince ctx.row.channelId ts.lastUpdate))
        let hours := maxF64 (if 0 < ts.lastUpdate then hoursBetween now ts.lastUpdate else 1.0) 0.1
        let rate := asF64 (volume * ctx.info.feeProportionalMillionths) / 1000000.0 / hours
        let change :=
          if ts.lastRevenueRate ≤ 0.0 then (if 0.0 < rate then 1.0 else 0.0)
          else (rate - ts.lastRevenueRate).abs / ts.lastRevenueRate
        if 0.20 < (if isCongested then 1.0 else change) then do
          Eff.modify wakeBoth
          pure (some (true, if isCongested then "congestion" else "revenue_spike"))
        else pure none
  else pure (some (false, "none"))

structure Observation where
  cursor : ℤ
  volumeSinceSats : ℤ
  forwardCount : ℤ
  hoursElapsed : Float

def observationCursor (cfg : FeeCfgSnapshot) (preLastUpdate now : ℤ) : ℤ :=
  if preLastUpdate ≤ 0 then now - feeIntervalOr cfg else preLastUpdate

/-- The forwards of the window, from the hint when the epoch it was taken at is a real time. -/
def forwardsInWindow (ctx : AdjustCtx) (cursor : ℤ) : Ask ω ℤ :=
  match ctx.forwardCountHint with
  | some n => if 0 < ctx.preLastUpdate then pure n
    else ask (d.evidence.forwardCountSince ctx.row.channelId cursor)
  | none => ask (d.evidence.forwardCountSince ctx.row.channelId cursor)

/-- The observation window; no value while it is still open. -/
def observe (ctx : AdjustCtx) (profile : FeeProfileSettings) (now : ℤ) :
    OnChannel ω τ π (Option Observation) := do
  let cursor := observationCursor d.cfg ctx.preLastUpdate now
  let volume ← asking (ask (d.evidence.volumeSince ctx.row.channelId cursor))
  let forwards ← asking (forwardsInWindow d ctx cursor)
  Eff.modify fun s => { s with cycle := { s.cycle with forwardCountSinceUpdate := forwards } }
  let hours := if 0 < ctx.preLastUpdate then hoursBetween now ctx.preLastUpdate else 0.0
  let waiting := decide (0 < ctx.preLastUpdate) && !(ctx.forceRepriceReason.isSome ||
    profile.minObservationHours ≤ hours || profile.minForwardsForSignal ≤ forwards)
  pure (if waiting then none
    else some ⟨cursor, volume, forwards, if hours ≤ 0.0 then 1.0 else hours⟩)

end Window

section Rails

structure Rails where
  marginalRoi : String
  effectiveMinFeePpm : ℤ
  baseFloorPpm : ℤ
  rebalanceCostPpm : ℤ
  floorPpm : ℤ
  ceilingPpm : ℤ
  vegasMultiplier : Float

def channelCapacity (info : ChannelInfo) : ℤ :=
  if info.capacitySats ≠ 0 then info.capacitySats else 2000000

def channelSpendable (info : ChannelInfo) : ℤ := info.spendableMsat / 1000

def outboundRatio (info : ChannelInfo) : Float :=
  if 0 < channelCapacity info then asF64 (channelSpendable info) / asF64 (channelCapacity info)
  else 0.5

def readsFlowWindow (cfg : FeeCfgSnapshot) (ctx : AdjustCtx) : Bool :=
  0 ≤ cfg.minFeePpmSaturated && cfg.minFeePpmSaturated < cfg.minFeePpm &&
    (ctx.row.state = "source" || 0.85 ≤ outboundRatio ctx.info)

def channelEffectiveMin (cfg : FeeCfgSnapshot) (row : ChannelStateRow) (info : ChannelInfo)
    (window : Option FlowWindow) : ℤ :=
  effectiveMinFeePpm cfg row.state (outboundRatio info) (channelCapacity info) window

/-- Sink and dormant channels read neither source; peer history is a fallback only. -/
def rebalanceFloor (ctx : AdjustCtx) : Ask ω (Option ℤ) :=
  if ctx.row.state = "sink" ∨ ctx.row.state = "dormant" then pure none
  else do
    let floorNow ← clockNow d "rebalance_cost_floor.cutoff"
    let history ← ask (d.evidence.channelCostHistory ctx.row.channelId (floorNow - 30 * 86400))
    match K.rebalanceCostFloor ctx.row.state history none floorNow with
    | some floor => pure (some floor)
    | none => do
      let peer ← ask (d.evidence.peerFeeHistory ctx.row.peerId)
      pure (K.rebalanceCostFloor ctx.row.state history
        (peer.map fun h => (h.confidence, h.avgFeePpm)) floorNow)

def rebalanceCost (ctx : AdjustCtx) (floorActive : Bool) : Ask ω ℤ :=
  if floorActive ∨ ctx.row.state = "sink" ∨ ctx.row.state = "dormant" then pure 0
  else do
    let costNow ← clockNow d "rebalance_cost_history.cutoff"
    let history ← ask (d.evidence.channelCostHistory ctx.row.channelId (costNow - 30 * 86400))
    pure (channelRebalanceCostPpm ctx.row.state history costNow)

def flowCeiling (ctx : AdjustCtx) (currentFeePpm now : ℤ) : Ask ω ℤ := do
  let lastForward ← if 500 ≤ currentFeePpm then ask (d.evidence.lastForwardTime ctx.row.channelId)
    else pure none
  let ceilingNow ← if lastForward.any (· ≠ 0) then clockNow d "flow_ceiling.last_forward_age"
    else pure now
  pure (K.flowAdjustedCeiling currentFeePpm d.cfg.maxFeePpm lastForward ceilingNow)

/-- Per-peer multipliers of a target fee narrow the limits. -/
def policyBounds (policy : Option PeerPolicy) (floor ceiling : ℤ) : ℤ × ℤ :=
  match policy with
  | none => (floor, ceiling)
  | some p =>
    let anchor := p.feePpmTarget.getD 0
    let (lo, hi) := feeMultiplierBounds p
    if 0 < anchor then
      (if p.feeMultiplierMin.isSome then max floor (asI64 (asF64 anchor * lo)) else floor,
        if p.feeMultiplierMax.isSome then min ceiling (asI64 (asF64 anchor * hi)) else ceiling)
    else (floor, ceiling)

def uninvert (effectiveMin floor ceiling : ℤ) : ℤ × ℤ :=
  if ceiling ≤ floor then
    let floor' := max effectiveMin (ceiling - 10)
    (floor', if ceiling ≤ floor' then floor' + 10 else ceiling)
  else (floor, ceiling)

def flowWindow (ctx : AdjustCtx) : Ask ω (Option FlowWindow) :=
  if readsFlowWindow d.cfg ctx then ask (d.evidence.flowWindow ctx.row.channelId) else pure none

def rails (ctx : AdjustCtx) (vegas : VegasReflexState) (currentFeePpm now : ℤ) : Ask ω Rails := do
  let roi ← ask (d.evidence.marginalRoiPercent ctx.row.channelId)
  let window ← flowWindow d ctx
  let effectiveMin := channelEffectiveMin d.cfg ctx.row ctx.info window
  let latency ← ask (d.evidence.peerLatency ctx.row.peerId)
  let multiplier :=
    if ctx.row.state = "source" then 1.10 else if ctx.row.state = "sink" then 0.75 else 1.0
  let chainFloor := max (K.calculateFloor (channelCapacity ctx.info) ctx.chainCosts latency
    ctx.info.opener) effectiveMin
  let stateFloor := max (asI64 (asF64 chainFloor * multiplier)) effectiveMin
  let vegasMultiplier := vegasFloorMultiplier K vegas
  let vegasFloor :=
    if 1.0 < vegasMultiplier then asI64 (asF64 stateFloor * vegasMultiplier) else stateFloor
  let rebalance ← rebalanceFloor K d ctx
  let baseFloor := rebalance.elim vegasFloor (max vegasFloor)
  let cost ← rebalanceCost d ctx rebalance.isSome
  let baseCeiling ← flowCeiling K d ctx currentFeePpm now
  let (floor, ceiling) := policyBounds ctx.policy baseFloor baseCeiling
  let (floor', ceiling') := uninvert effectiveMin floor ceiling
  pure ⟨roi.elim "unknown" fun x => "marginal_roi=" ++ K.fixed 1 x ++ "%", effectiveMin, baseFloor,
    cost, floor', ceiling', vegasMultiplier⟩

end Rails

end FeeCycle
