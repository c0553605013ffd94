import RevenueOps.FeeTarget

/-! The end of one channel's adjustment: the alpha guard, the gossip deadband with its refresh,
the idempotency check, and the change itself. Every exit behind the target restarts the
observation timer. -/
namespace FeeCycle

open KeyedTable PeerPolicies RustNumber RustFloat FallibleState

variable {ω τ π : Type} (K : Kernel τ π) (d : CycleDeps ω τ π)

section Refresh

/-- A refresh is due a day after the last broadcast, the last forward and the last refresh. -/
def shouldForceGossipRefresh (c : ChannelCycleState) (channelId : String) (now : ℤ) : Ask ω Bool :=
  if c.lastBroadcastAt ≤ 0 ∨ hoursBetween now c.lastBroadcastAt < 24.0 then pure false
  else do
    let lastForward ← ask (d.evidence.lastForwardTime channelId)
    let busy := lastForward.any fun t => 0 < t && hoursBetween now t < 24.0
    let cooling := decide (0 < c.lastGossipRefresh) && hoursBetween now c.lastGossipRefresh < 24.0
    pure (!busy && !cooling)

def nudgeFee (cfg : FeeCfgSnapshot) (currentFeePpm : ℤ) : Option ℤ :=
  ([currentFeePpm + 1, currentFeePpm - 1].map fun cand =>
    max cfg.minFeePpm (min cfg.maxFeePpm cand)).find?
    (· ≠ currentFeePpm)

def refreshRequest (cfg : FeeCfgSnapshot) (channelId : String) (fee currentFeePpm : ℤ) :
    FeeExecutionRequest :=
  feeExecutionRequest ⟨channelId, fee, true, none, none, none, cfg.baseFeeMsat⟩ currentFeePpm none

def syncRefresh (fee now : ℤ) (s : ChannelRun ω τ π) : ChannelRun ω τ π :=
  { s with
    cycle := { ((s.cycle.wakeUp.setLastGossipRefresh now).setLastBroadcastAt now) with
      lastFeePpm := fee
      lastBroadcastFeePpm := fee
      lastUpdate := now
      lastState := FeeReasonCode.gossipRefresh.asStr }
    fee := { ((s.fee.wakeUp.setLastGossipRefresh now).setLastBroadcastAt now) with
      lastFeePpm := fee
      lastBroadcastFeePpm := fee
      lastUpdate := now
      lastState := FeeReasonCode.gossipRefresh.asStr } }

def createGossipRefreshAdjustment (row : ChannelStateRow) (currentFeePpm now : ℤ) :
    OnChannel ω τ π AdjustResult :=
  match nudgeFee d.cfg currentFeePpm with
  | none => pure ⟨none, none⟩
  | some nudge => do
    let _ ← asking (ask (d.evidence.lastForwardTime row.channelId))
    let sent ← Eff.on ChannelRun.broadcast (submit d
      (refreshRequest d.cfg row.channelId nudge currentFeePpm) "gossip_refresh" .gossipRefresh)
    if sent.success then do
      let fee := sent.decision.clampedFeePpm
      let _ ← asking (clockNow d "fee.apply")
      let _ ← asking (clockNow d "fee.state_sync")
      Eff.modify (syncRefresh fee now)
      pure ⟨some ⟨row.channelId, row.peerId, currentFeePpm, fee, "gossip_refresh",
        FeeReasonCode.gossipRefresh.asStr⟩, sent.governed⟩
    else pure ⟨none, sent.governed⟩

def refreshWhenDue (row : ChannelStateRow) (currentFeePpm now : ℤ) (due : Bool) :
    OnChannel ω τ π AdjustResult :=
  if due then createGossipRefreshAdjustment d row currentFeePpm now else pure ⟨none, none⟩

def holdOrRefresh (row : ChannelStateRow) (currentFeePpm now : ℤ)
    (hold : ChannelRun ω τ π → ChannelRun ω τ π) : OnChannel ω τ π AdjustResult := do
  let cycle ← Eff.read ChannelRun.cycle
  let due ← asking (shouldForceGossipRefresh d cycle row.channelId now)
  let refreshed ← refreshWhenDue d row currentFeePpm now due
  if refreshed.adjustment.isSome then pure refreshed
  else do
    Eff.modify hold
    pure refreshed

end Refresh

section Deadbands

def pendTarget (sc : Scene) (t : Target) (s : ChannelRun ω τ π) : ChannelRun ω τ π :=
  { s with cycle := { s.cycle with
      pendingTargetPpm := if t.newFeePpm ≠ sc.currentFeePpm then t.newFeePpm else 0 } }

/-- The timer restarts and the current fee stays: the alpha guard, and a refused change. -/
def restartTimer (sc : Scene) (s : ChannelRun ω τ π) : ChannelRun ω τ π :=
  { s with
    cycle := { s.cycle with lastRevenueRate := sc.revenueRate
                            lastFeePpm := sc.currentFeePpm
                            lastUpdate := sc.now }
    fee := { s.fee with lastRevenueRate := sc.revenueRate
                        lastFeePpm := sc.currentFeePpm
                        lastUpdate := sc.now } }

def suppressGossip (sc : Scene) (t : Target) (s : ChannelRun ω τ π) : ChannelRun ω τ π :=
  { s with
    cycle := { s.cycle with lastFeePpm := t.newFeePpm
                            lastRevenueRate := sc.revenueRate
                            trendDirection := t.newDirection
                            stepPpm := t.stepPpm
                            lastUpdate := sc.now }
    fee := { s.fee with lastFeePpm := t.newFeePpm
                        lastRevenueRate := sc.revenueRate
                        lastState := t.decisionReason
                        lastUpdate := sc.now } }

def keepFee (sc : Scene) (t : Target) (s : ChannelRun ω τ π) : ChannelRun ω τ π :=
  { s with
    cycle := { s.cycle with pendingTargetPpm := 0
                            lastRevenueRate := sc.revenueRate
                            lastFeePpm := sc.rawChainFee
                            lastBroadcastFeePpm := t.newFeePpm
                            lastState := t.decisionReason
                            trendDirection := t.newDirection
                            stepPpm := t.stepPpm
                            lastUpdate := sc.now }
    fee := { s.fee with lastRevenueRate := sc.revenueRate
                        lastFeePpm := sc.rawChainFee
                        lastBroadcastFeePpm := t.newFeePpm
                        lastState := t.decisionReason
                        lastUpdate := sc.now } }

def htlcmaxTarget (sc : Scene) : Option ℤ :=
  K.computeHtlcmaxMsat d.cfg sc.ctx.info.capacitySats sc.ctx.info.spendableMsat sc.flowState

def channelPolicyChange (sc : Scene) : Bool :=
  sc.ctx.info.feeBaseMsat != d.cfg.baseFeeMsat ||
    (htlcmaxTarget K d sc).any (K.deltaExceedsDeadband · sc.ctx.info.htlcMaximumMsat)

def minChange (currentFeePpm : ℤ) : ℤ :=
  if currentFeePpm < 100 then 1 else max 5 ((currentFeePpm * 3 + 99) / 100)

def withinAlphaGuard (sc : Scene) (t : Target) : Bool :=
  let zeroFeeRecovery := sc.rawChainFee ≤ 0 && 0 < t.newFeePpm && !sc.isUnderExploration
  |t.newFeePpm - sc.currentFeePpm| < minChange sc.currentFeePpm && !sc.isCongested &&
    !channelPolicyChange K d sc && !zeroFeeRecovery

def significantChange (sc : Scene) (t : Target) (c : ChannelCycleState) : Bool :=
  asF64 c.lastBroadcastFeePpm * 0.05 < asF64 |t.newFeePpm - c.lastBroadcastFeePpm| ||
    c.lastBroadcastFeePpm ≤ 0 || sc.rawChainFee ≤ 0 ||
    reasonCategory c.lastState != reasonCategory t.decisionReason

end Deadbands

section Change

def reasonCode (sc : Scene) (t : Target) : FeeReasonCode :=
  match t.decisionReason with
  | "LOW_FEE_EXPLORATION" => .lowFeeExploration
  | "LOW_FEE_EXPLORATION_SUCCESS" => .lowFeeExplorationSuccess
  | "ZERO_FEE_PROBE" => .zeroFeeProbe
  | "ZERO_FEE_PROBE_SUCCESS" => .zeroFeeProbeSuccess
  | _ => if sc.isCongested then .congestion else .dtsPidSample

def FeeReasonCode.syncsState : FeeReasonCode → Bool
  | lowFeeExploration | lowFeeExplorationSuccess | zeroFeeProbe | zeroFeeProbeSuccess => true
  | _ => false

def targetSummary (sc : Scene) (t : Target) : String :=
  let cost := sc.rails.rebalanceCostPpm
  let costTag := if 0 < cost then ", rebal_cost_nudge:" ++ toString cost ++ "ppm" else ""
  match t.rawDtsTargetPpm with
  | some rawDts =>
    "targets=dts:" ++ toString rawDts ++ ", post_pid:" ++ optIntText t.postPidTargetPpm ++
      ", bounded:" ++ optIntText t.boundedTargetPpm ++ ", blended:" ++
      optIntText t.blendedTargetPpm ++ ", applied:" ++ toString t.newFeePpm ++ ", blend:" ++
      K.fixed 2 t.targetBlendRatio ++ ", bound:" ++ t.boundReason ++ ", cap:" ++
      t.deltaCapReason ++ "(" ++ toString t.deltaCapPpm ++ "ppm), wake:" ++ sc.wakeReason ++
      ", sparse:" ++ pyBoolStr t.sparseDataConservative ++ ", exploration:" ++
      t.explorationMode ++ ", zero_flow_guard:" ++ t.zeroFlowGuardReason.getD "none" ++ costTag
  | none =>
    "targets=n/a, blend:" ++ K.fixed 2 t.targetBlendRatio ++ ", wake:" ++ sc.wakeReason ++
      ", sparse:" ++ pyBoolStr t.sparseDataConservative ++ ", exploration:" ++
      t.explorationMode ++ costTag

def changeReason (sc : Scene) (t : Target) (thompson : τ) : String :=
  let delta := t.newFeePpm - sc.currentFeePpm
  let dir := if 0 < delta then "up" else if delta < 0 then "down" else "flat"
  let suffix :=
    "rate=" ++ K.fixed 2 sc.revenueRate ++ "sats/hr (" ++ t.decisionReason ++ ")" ++
      (if t.volatilityReset then " [VOLATILITY_RESET]" else "") ++ ", " ++ targetSummary K sc t ++
      ", applied=" ++ dir ++ "(" ++ signedText delta ++ "ppm), state=" ++ sc.flowState ++
      ", liquidity=" ++ liquidityBucket sc.outbound ++ " (" ++ K.fixed 0 (sc.outbound * 100.0) ++
      "%), " ++ sc.rails.marginalRoi
  match t.decisionReason with
  | "CONGESTION" => "CONGESTION: bounded emergency override active, " ++ suffix
  | "LOW_FEE_EXPLORATION_SUCCESS" | "ZERO_FEE_PROBE_SUCCESS" =>
    "EXPLORATION: holding safe low-fee after exploration traffic, " ++ suffix
  | "LOW_FEE_EXPLORATION" | "ZERO_FEE_PROBE" =>
    "EXPLORATION: bounded low-fee discovery mode, " ++ suffix
  | _ => "DTS+PID: " ++ suffix ++ ", posterior_mean=" ++ K.fixed 0 (K.posteriorMean thompson) ++
      ", posterior_std=" ++ K.fixed 0 (K.posteriorStd thompson)

def changeRequest (sc : Scene) (t : Target) : FeeExecutionRequest :=
  feeExecutionRequest ⟨sc.channelId, t.newFeePpm, true, some sc.rails.effectiveMinFeePpm, none,
    htlcmaxTarget K d sc, d.cfg.baseFeeMsat⟩ sc.rawChainFee (some d.cfg.baseFeeMsat)

/-- The upward probe is spent only when the applied fee crosses the cap before the stretch. -/
def spendProbe (sc : Scene) (t : Target) (fee : ℤ) (thompson : τ) : τ :=
  if t.upwardProbePreCapPpm.any (· < fee) then K.consumeUpwardProbe thompson sc.now else thompson

def syncChange (sc : Scene) (t : Target) (fee : ℤ) (s : ChannelRun ω τ π) : ChannelRun ω τ π :=
  { s with
    cycle := { (s.cycle.setLastBroadcastAt sc.now) with
      pendingTargetPpm := 0
      lastRevenueRate := sc.revenueRate
      lastFeePpm := sc.currentFeePpm
      lastBroadcastFeePpm := fee
      lastState := t.decisionReason
      consecutiveSameDirection :=
        if t.newDirection ≠ 0 ∧ t.newDirection = sc.prevTrendDirection then
          s.cycle.consecutiveSameDirection + 1
        else if t.newDirection ≠ 0 then 1 else 0
      trendDirection := t.newDirection
      stepPpm := t.stepPpm
      lastUpdate := sc.now }
    fee := { (s.fee.setLastBroadcastAt sc.now) with
      thompson := spendProbe K sc t fee s.fee.thompson
      lastRevenueRate := sc.revenueRate
      lastFeePpm := sc.currentFeePpm
      lastBroadcastFeePpm := fee
      lastState := t.decisionReason
      lastUpdate := sc.now } }

/-- The inner sync of an exploration; the timestamps are overwritten right after. -/
def syncExploration (code : FeeReasonCode) : OnChannel ω τ π Unit :=
  if code.syncsState then do
    let _ ← asking (clockNow d "fee.state_sync")
    Eff.modify wakeBoth
  else pure ()

def broadcastChange (sc : Scene) (t : Target) : OnChannel ω τ π AdjustResult := do
  let thompson ← Eff.read fun s => s.fee.thompson
  let reason := changeReason K sc t thompson
  let code := reasonCode sc t
  let sent ← Eff.on ChannelRun.broadcast (submit d (changeRequest K d sc t) reason code)
  if sent.success then do
    let fee := sent.decision.clampedFeePpm
    let _ ← asking (clockNow d "fee.apply")
    syncExploration d code
    Eff.modify (syncChange K sc t fee)
    pure ⟨some ⟨sc.channelId, sc.ctx.row.peerId, sc.currentFeePpm, fee, reason, code.asStr⟩,
      sent.governed⟩
  else do
    -- A refused change has consumed its window all the same.
    Eff.modify (restartTimer sc)
    pure ⟨none, sent.governed⟩

def settle (sc : Scene) (t : Target) : OnChannel ω τ π AdjustResult := do
  let cycle ← Eff.read ChannelRun.cycle
  if withinAlphaGuard K d sc t then do
    Eff.modify (pendTarget sc t)
    holdOrRefresh d sc.ctx.row sc.currentFeePpm sc.now (restartTimer sc)
  else if !significantChange sc t cycle && !channelPolicyChange K d sc then do
    Eff.modify (pendTarget sc t)
    holdOrRefresh d sc.ctx.row sc.currentFeePpm sc.now (suppressGossip sc t)
  else if t.newFeePpm = sc.rawChainFee ∧ channelPolicyChange K d sc = false then do
    Eff.modify (keepFee sc t)
    pure ⟨none, none⟩
  else broadcastChange K d sc t

end Change

section Adjust

def scene (ctx : AdjustCtx) (isCongested isUnderExploration : Bool) (currentFeePpm now : ℤ)
    (woke : Bool × String) (obs : Observation) (r : Rails) (before : ChannelCycleState) :
    Scene where
  ctx := ctx
  now := now
  isCongested := isCongested
  isUnderExploration := isUnderExploration
  rawChainFee := ctx.info.feeProportionalMillionths
  currentFeePpm := currentFeePpm
  wokeFromSleep := woke.1
  wakeReason := woke.2
  obs := obs
  revenueRate :=
    if 0.0 < obs.hoursElapsed then
      asF64 (obs.volumeSinceSats * ctx.info.feeProportionalMillionths) / 1000000.0 /
        obs.hoursElapsed
    else 0.0
  rails := r
  profileName := (feeProfile K d.cfg.feeProfile).1
  profile := (feeProfile K d.cfg.feeProfile).2
  prevCongestionActive := before.congestionActive
  prevTrendDirection := before.trendDirection

def adjustChannel (ctx : AdjustCtx) (vegas : VegasReflexState)
    (isCongested isUnderExploration : Bool)
    (now : ℤ) : OnChannel ω τ π AdjustResult := do
  let raw := ctx.info.feeProportionalMillionths
  let currentFeePpm := if raw = 0 ∧ isUnderExploration = false then d.cfg.minFeePpm else raw
  let before ← Eff.read ChannelRun.cycle
  match ← sleepCheck d ctx isCongested now with
  | none => pure ⟨none, none⟩
  | some woke =>
    match ← observe d ctx (feeProfile K d.cfg.feeProfile).2 now with
    | none => pure ⟨none, none⟩
    | some obs => do
      let r ← asking (rails K d ctx vegas currentFeePpm now)
      let sc := scene K d ctx isCongested isUnderExploration currentFeePpm now woke obs r before
      match ← decideTarget K d sc with
      | none => pure ⟨none, none⟩
      | some t => settle K d sc t

end Adjust

end FeeCycle
