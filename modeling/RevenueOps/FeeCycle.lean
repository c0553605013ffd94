import RevenueOps.FeeSettle

/-! The fee cycle over all channels: policy gates, the adjustment of each channel, wakes, the one
flush of the dirty states, and the journal. An error stops the cycle where it stands. -/
namespace FeeCycle

open KeyedTable PeerPolicies RustNumber RustFloat FallibleState

section Wakes

variable {τ π : Type}

def mapValues {α : Type} (m : Dict String α) (f : String → α → α) : Dict String α :=
  m.updateWhere (fun _ => true) (fun e => (e.1, f e.1 e.2)) fun _ => rfl

@[simp] theorem get_mapValues {α : Type} (m : Dict String α) (f : String → α → α) (id : String) :
    (mapValues m f).get? id = (m.get? id).map (f id) := by
  simp only [Dict.get?, mapValues, find_updateWhere]
  cases h : m.find? id with
  | none => rfl
  | some e =>
    obtain rfl := find_key h
    rfl

def backdatedTo (profile : FeeProfileSettings) (now : ℤ) : ℤ :=
  now - asI64 (profile.minObservationHours * 3600.0) - 1

def ChannelCycleState.wakeBackdated (backdated : ℤ) (c : ChannelCycleState) : ChannelCycleState :=
  { (if c.isSleeping then c.wakeUp else c) with lastUpdate := min c.lastUpdate backdated }

def ChannelFeeState.wakeBackdated (backdated : ℤ) (f : ChannelFeeState τ π) :
    ChannelFeeState τ π :=
  { (if f.isSleeping then f.wakeUp else f) with lastUpdate := min f.lastUpdate backdated }

/-- Wake the live states, and move the epochs already cached for them along. -/
def wakeAllSleepingChannels (profile : FeeProfileSettings) (now : ℤ) (s : ControllerState τ π) :
    ControllerState τ π × ℤ :=
  let backdated := backdatedTo profile now
  let changedCycles :=
    s.cycleStates.rows.filter fun e => e.2.isSleeping || backdated < e.2.lastUpdate
  let changedFees := s.feeStates.rows.filter fun e => e.2.isSleeping || backdated < e.2.lastUpdate
  ({ s with
      cycleStates := mapValues s.cycleStates fun _ => .wakeBackdated backdated
      feeStates := mapValues s.feeStates fun _ => .wakeBackdated backdated
      skipGatePrev := mapValues s.skipGatePrev fun id epoch =>
        if s.cycleStates.contains id then ⟨min epoch.lastUpdate backdated, false⟩ else epoch },
    changedCycles.length + changedFees.length)

/-- Wake once per spike; a low intensity arms the wake again. -/
def maybeWakeForVegasSpike (profile : FeeProfileSettings) (now : ℤ) (s : ControllerState τ π) :
    ControllerState τ π :=
  if s.vegasWakeArmed && 0.5 ≤ s.vegas.intensity then
    (wakeAllSleepingChannels profile now { s with vegasWakeArmed := false }).1
  else if !s.vegasWakeArmed && s.vegas.intensity < 0.3 then { s with vegasWakeArmed := true }
  else s

/-- The peer's sleeping channels wake so that the next cycle applies its new policy. -/
def handlePolicyChange (rows : List ChannelStateRow) (peerId : String) (s : ControllerState τ π) :
    ControllerState τ π × ℤ :=
  let ids := (rows.filter fun r => r.peerId = peerId && !r.channelId.isEmpty).map
    ChannelStateRow.channelId
  let woken := s.cycleStates.rows.filter fun e => e.1 ∈ ids && e.2.isSleeping
  ({ s with
      cycleStates :=
        mapValues s.cycleStates fun id c => if id ∈ ids ∧ c.isSleeping then c.wakeUp else c
      feeStates := mapValues s.feeStates fun id f => if id ∈ ids ∧ f.isSleeping then
        f.wakeUp else f },
    woken.length)

/-- Under owned state the epoch a cycle's gates read is the live one. -/
def setSkipGatesToOwned (s : ControllerState τ π) : ControllerState τ π :=
  let owned := Dict.insertAll .empty (s.cycleStates.rows.map fun e =>
    (e.1, (⟨e.2.lastUpdate, e.2.isSleeping⟩ : SkipGateEpoch)))
  { s with skipGatePrev := owned, skipGateSeen := owned }

end Wakes

variable {ω τ π : Type} (K : Kernel τ π) (d : CycleDeps ω τ π)

inductive SkipReason where
  | policyPassive
  | policyStatic
  | temporaryOverlay
  | sleeping
  | waitingTime
  | waitingForwards
  | alphaGuard
  | feeUnchanged
  | gossipHysteresis
  | idempotent
  | missingChannelInfo
  | error
  deriving DecidableEq, Repr

namespace SkipReason

def asStr : SkipReason → String
  | policyPassive => "policy_passive"
  | policyStatic => "policy_static"
  | temporaryOverlay => "temporary_overlay"
  | sleeping => "sleeping"
  | waitingTime => "waiting_time"
  | waitingForwards => "waiting_forwards"
  | alphaGuard => "alpha_guard"
  | feeUnchanged => "fee_unchanged"
  | gossipHysteresis => "gossip_hysteresis"
  | idempotent => "idempotent"
  | missingChannelInfo => "missing_channel_info"
  | error => "error"

/-- The order in which ties between the tallies are decided. -/
def declared : List SkipReason :=
  [policyPassive, policyStatic, temporaryOverlay, sleeping, waitingTime,
    waitingForwards, alphaGuard,
    feeUnchanged, gossipHysteresis, idempotent, missingChannelInfo, error]

def suppresses : SkipReason → Bool
  | alphaGuard | feeUnchanged => false
  | _ => true

def code : SkipReason → String
  | sleeping => FeeReasonCode.skipSleeping.asStr
  | waitingTime => FeeReasonCode.skipWaitingTime.asStr
  | waitingForwards => FeeReasonCode.skipWaitingForwards.asStr
  | feeUnchanged | idempotent => FeeReasonCode.skipFeeUnchanged.asStr
  | policyPassive => FeeReasonCode.policyPassive.asStr
  | policyStatic => FeeReasonCode.policyStatic.asStr
  | gossipHysteresis => "skip_gossip_hysteresis"
  | alphaGuard => "skip_alpha_guard"
  | temporaryOverlay => "skip_temporary_overlay"
  | error => "skip_error"
  | missingChannelInfo => "skip_unknown"

def dominant (skips : List SkipReason) : SkipReason :=
  (declared.foldl (fun (best : SkipReason × ℕ) r =>
    if best.2 < skips.count r then (r, skips.count r) else best) (feeUnchanged, 0)).1

end SkipReason

inductive ChannelOutcome where
  | adjusted (rec : FeeAdjustmentRec)
  | skipped (reason : SkipReason)

structure ChannelResult where
  outcome : ChannelOutcome
  governed : Option GovernedTrace

section Process

def CycleRun.asking {α : Type} (m : Ask ω α) : OnCycle ω τ π α := Eff.on CycleRun.outside m

def stamp (label : String) : OnCycle ω τ π ℤ := do
  let t ← CycleRun.asking (clockNow d label)
  Eff.modify fun s => { s with world := { s.world with readings := s.world.readings ++ [t] } }
  pure t

def ensureCycleState (channelId : String) (actualFeePpm : ℤ) (s : CycleRun ω τ π) :
    CycleRun ω τ π :=
  let cycle := (s.state.cycleStates.get? channelId).getD .default
  { s with state := { s.state with
      cycleStates := s.state.cycleStates.insert channelId (cycle.resync actualFeePpm) } }

def ensureFeeState (channelId : String) (actualFeePpm : ℤ) (s : CycleRun ω τ π) :
    CycleRun ω τ π :=
  let fee := (s.state.feeStates.get? channelId).getD (.default K.defaultThompson K.defaultPid)
  { s with state := { s.state with
      feeStates := s.state.feeStates.insert channelId (fee.resync actualFeePpm) } }

def CycleRun.channel (channelId : String) : Part (CycleRun ω τ π) (ChannelRun ω τ π) where
  get s := ⟨(s.state.cycleStates.get? channelId).getD .default,
    (s.state.feeStates.get? channelId).getD (.default K.defaultThompson K.defaultPid), s.world⟩
  put c s := { s with
    state := { s.state with cycleStates := s.state.cycleStates.insert channelId c.cycle
                            feeStates := s.state.feeStates.insert channelId c.fee }
    world := c.world }

def adjustChannelFee (ctx : AdjustCtx) (evaluatedAt : ℤ) : OnCycle ω τ π AdjustResult := do
  let channelId := ctx.row.channelId
  let isCongested := K.detectCongestion ctx.row ctx.info d.cfg.htlcCongestionThreshold
    d.cfg.flowInterval evaluatedAt
  let isUnderExploration ← CycleRun.asking (ask (d.evidence.explorationFlag channelId))
  let now ← stamp d "channel.adjust"
  Eff.modify (ensureCycleState channelId ctx.info.feeProportionalMillionths)
  Eff.modify (ensureFeeState K channelId ctx.info.feeProportionalMillionths)
  let vegas ← Eff.read fun s => s.state.vegas
  Eff.on (CycleRun.channel K channelId)
    (adjustChannel K d ctx vegas isCongested isUnderExploration now)

def staticRequest (cfg : FeeCfgSnapshot) (info : ChannelInfo) (target : ℤ) : FeeExecutionRequest :=
  feeExecutionRequest ⟨info.channelId, target, true, none, none, none, cfg.baseFeeMsat⟩
    info.feeProportionalMillionths none

def syncStatic (fee now : ℤ) (s : ChannelRun ω τ π) : ChannelRun ω τ π :=
  { s with
    cycle := { (s.cycle.wakeUp.setLastBroadcastAt now) with
      lastFeePpm := fee
      lastBroadcastFeePpm := fee
      lastUpdate := now
      lastState := FeeReasonCode.policyStatic.asStr }
    fee := { (s.fee.wakeUp.setLastBroadcastAt now) with
      lastFeePpm := fee
      lastBroadcastFeePpm := fee
      lastUpdate := now
      lastState := FeeReasonCode.policyStatic.asStr } }

def staticPolicyBranch (info : ChannelInfo) (peerId : String) (target : ℤ) :
    OnCycle ω τ π ChannelResult :=
  let currentFee := info.feeProportionalMillionths
  if currentFee = max d.cfg.minFeePpm (min d.cfg.maxFeePpm target) then
    pure ⟨.skipped .policyStatic, none⟩
  else do
    let sent ← Eff.on CycleRun.broadcast
      (submit d (staticRequest d.cfg info target) "Policy: STATIC" .policyStatic)
    if sent.success then do
      let fee := sent.decision.clampedFeePpm
      let _ ← stamp d "fee.apply"
      let now ← stamp d "fee.state_sync"
      Eff.modify (ensureCycleState info.channelId fee)
      Eff.modify (ensureFeeState K info.channelId fee)
      Eff.on (CycleRun.channel K info.channelId) (Eff.modify (syncStatic fee now))
      pure ⟨.adjusted ⟨info.channelId, peerId, currentFee, fee, "Policy: STATIC fee override",
        FeeReasonCode.policyStatic.asStr⟩, sent.governed⟩
    else pure ⟨.skipped .error, sent.governed⟩

structure PreCall where
  isSleeping : Bool
  lastUpdate : ℤ
  hoursElapsed : Float
  forwardCount : ℤ
  lastBroadcastFeePpm : ℤ

def classifyNoAdjustmentSkipReason (c : ChannelCycleState) (now : ℤ) (pre : PreCall)
    (actualFeePpm : ℤ) (profile : FeeProfileSettings) : SkipReason :=
  if pre.isSleeping then .sleeping
  else if 0 < pre.lastUpdate ∧ ¬ profile.minObservationHours ≤ pre.hoursElapsed ∧
      ¬ profile.minForwardsForSignal ≤ pre.forwardCount then .waitingTime
  else if now ≤ c.lastUpdate then
    if c.lastFeePpm ≠ actualFeePpm ∧ c.lastBroadcastFeePpm = pre.lastBroadcastFeePpm then
      .gossipHysteresis
    else if c.lastFeePpm = actualFeePpm ∧ c.lastBroadcastFeePpm = actualFeePpm then .idempotent
    else .alphaGuard
  else .feeUnchanged

/-- The epoch before this cycle's decision: the cached one, and the live one without a cache. -/
def preEpoch (channelId : String) (s : ControllerState τ π) : SkipGateEpoch :=
  match s.skipGatePrev.get? channelId with
  | some epoch => epoch
  | none =>
    let cycle := (s.cycleStates.get? channelId).getD .default
    ⟨cycle.lastUpdate, cycle.isSleeping⟩

def forwardsBefore (channelId : String) (epoch : SkipGateEpoch) : Ask ω (Option ℤ) :=
  if 0 < epoch.lastUpdate then do
    let n ← ask (d.evidence.forwardCountSince channelId epoch.lastUpdate)
    pure (some n)
  else pure none

structure CycleScope where
  chainCosts : Option ChainCosts
  nodeDrainBiasEffectiveCap : Float

def dynamicBranch (scope : CycleScope) (row : ChannelStateRow) (info : ChannelInfo)
    (policy : Option PeerPolicy) : OnCycle ω τ π ChannelResult := do
  let now ← stamp d "cycle.channel.evaluate"
  let actualFee := info.feeProportionalMillionths
  Eff.modify (ensureCycleState row.channelId actualFee)
  let pre ← Eff.read fun s => (s.state.cycleStates.get? row.channelId).getD .default
  let epoch ← Eff.read fun s => preEpoch row.channelId s.state
  let hint ← CycleRun.asking (forwardsBefore d row.channelId epoch)
  let adjusted ← adjustChannelFee K d
    { row := row
      info := info
      chainCosts := scope.chainCosts
      policy := policy
      forwardCountHint := hint
      preLastUpdate := epoch.lastUpdate
      nodeDrainBiasEffectiveCap := some scope.nodeDrainBiasEffectiveCap
      forceRepriceReason := none } now
  match adjusted.adjustment with
  | some rec => pure ⟨.adjusted rec, adjusted.governed⟩
  | none => do
    let cycle ← Eff.read fun s => (s.state.cycleStates.get? row.channelId).getD .default
    let hours := if 0 < epoch.lastUpdate then hoursBetween now epoch.lastUpdate else 0.0
    pure ⟨.skipped
      (classifyNoAdjustmentSkipReason cycle now ⟨epoch.isSleeping, epoch.lastUpdate, hours,
      hint.getD 0, pre.lastBroadcastFeePpm⟩ actualFee (feeProfile K d.cfg.feeProfile).2),
      adjusted.governed⟩

def processChannel (scope : CycleScope) (row : ChannelStateRow) (info : ChannelInfo) :
    OnCycle ω τ π ChannelResult := do
  if ← CycleRun.asking (ask (d.evidence.temporaryOverlayActive row.channelId)) then
    pure ⟨.skipped .temporaryOverlay, none⟩
  else do
    let policy ← CycleRun.asking (ask (d.evidence.policy row.peerId))
    match policy with
    | some p =>
      match p.strategy, p.feePpmTarget with
      | .passive, _ => pure ⟨.skipped .policyPassive, none⟩
      | .static, some target => staticPolicyBranch K d info row.peerId target
      | _, _ => dynamicBranch K d scope row info policy
    | none => dynamicBranch K d scope row info policy

end Process

section Run

structure Tally where
  decisions : List FeeDecision
  adjustments : List FeeAdjustmentRec
  skips : List SkipReason
  dirty : List String

def Tally.empty : Tally := ⟨[], [], [], []⟩

def Tally.touch (t : Tally) (channelId : String) : Tally :=
  if channelId ∈ t.dirty then t else { t with dirty := t.dirty ++ [channelId] }

def Tally.add (t : Tally) (row : ChannelStateRow) (info : ChannelInfo) (cycleId : String) (now : ℤ)
    (r : ChannelResult) : Tally :=
  let t := t.touch row.channelId
  match r.outcome with
  | .adjusted a =>
    { t with
      decisions := t.decisions ++ [⟨a.channelId, a.peerId, a.oldFeePpm, a.newFeePpm, a.reason,
        a.reasonCode, true, r.governed, cycleId, now⟩]
      adjustments := t.adjustments ++ [a] }
  | .skipped reason =>
    let fee := info.feeProportionalMillionths
    { t with
      decisions := t.decisions ++ [⟨row.channelId, row.peerId, fee, fee, "skip: " ++ reason.asStr,
        reason.code, false, r.governed, cycleId, now⟩]
      skips := t.skips ++ [reason] }

/-- A row without ids is passed over, one without a live channel is only tallied. -/
def visitRow (scope : CycleScope) (channels : ChannelsInfo) (cycleId : String) (now : ℤ)
    (row : ChannelStateRow) (t : Tally) : OnCycle ω τ π Tally :=
  if row.channelId.isEmpty || row.peerId.isEmpty then pure t
  else
    match channels.find? row.channelId with
    | none => pure { t with skips := t.skips ++ [.missingChannelInfo] }
    | some info => do
      let r ← processChannel K d scope row info
      pure (t.add row info cycleId now r)

def visitRows (scope : CycleScope) (channels : ChannelsInfo) (cycleId : String) (now : ℤ) :
    List ChannelStateRow → Tally → OnCycle ω τ π Tally
  | [], t => pure t
  | row :: rows, t => do
    let t' ← visitRow K d scope channels cycleId now row t
    visitRows scope channels cycleId now rows t'

def setSummary (action reason : String) (dominant : Option String) (block : Bool)
    (s : CycleRun ω τ π) : CycleRun ω τ π :=
  { s with state := { s.state with lastDecisionSummary := ⟨action, reason, dominant, block⟩ } }

def summarize (t : Tally) : CycleRun ω τ π → CycleRun ω τ π :=
  match t.adjustments.getLast? with
  | some last =>
    let action :=
      if last.oldFeePpm < last.newFeePpm then "raise"
      else if last.newFeePpm < last.oldFeePpm then "lower" else "hold"
    setSummary action last.reason (some last.reasonCode) false
  | none =>
    if t.skips.isEmpty then setSummary "hold" "fee_unchanged" (some "fee_unchanged") false
    else
      let dominant := SkipReason.dominant t.skips
      setSummary (if dominant.suppresses then "suppressed" else "hold") dominant.asStr
        (some dominant.asStr) dominant.suppresses

def dirtyRows (s : ControllerState τ π) (dirty : List String) :
    List (String × ChannelCycleState × ChannelFeeState τ π) :=
  dirty.map fun id => (id, (s.cycleStates.get? id).getD .default,
    (s.feeStates.get? id).getD (.default K.defaultThompson K.defaultPid))

def flush (dirty : List String) : OnCycle ω τ π Unit :=
  match d.stateSink with
  | none => pure ()
  | some sink => do
    let rows ← Eff.read fun s => dirtyRows K s.state dirty
    CycleRun.asking (ask (sink rows))

def onVegas (f : VegasReflexState → VegasReflexState) (s : CycleRun ω τ π) : CycleRun ω τ π :=
  { s with state := { s.state with vegas := f s.state.vegas } }

/-- A confirmed middling spike needs no luck; an unconfirmed one draws a number. -/
def vegasBoosted (consecutiveSpikes : ℤ) (boost : Float) : Ask ω Bool :=
  if 2 ≤ consecutiveSpikes then pure true
  else do
    let draw ← ask (d.random "vegas.boost")
    pure (draw < boost * 0.5)

/-- The intensity after this update's spike, from the decayed one. -/
def vegasIntensity (ratio : Float) (v : VegasReflexState) : Ask ω Float :=
  if 4.0 ≤ ratio then pure 1.0
  else if 2.0 ≤ ratio then do
    let boost := (ratio - 2.0) / 2.0
    let boosted ← vegasBoosted d v.consecutiveSpikes boost
    pure (if boosted then minF64 (v.intensity + boost * 0.3) 1.0 else v.intensity)
  else pure v.intensity

/-- Decay goes first, and the spike count with it; a failed draw keeps both. -/
def vegasUpdate (currentSatVb maSatVb : Float) (now : ℤ) : OnCycle ω τ π Unit := do
  let ratio := currentSatVb / (if maSatVb ≤ 0.0 then 1.0 else maSatVb)
  Eff.modify (onVegas fun v => { v with
    intensity := v.intensity * v.decayRate
    consecutiveSpikes := if 2.0 ≤ ratio then v.consecutiveSpikes + 1 else 0 })
  let vegas ← Eff.read fun s => s.state.vegas
  let intensity ← CycleRun.asking (vegasIntensity d ratio vegas)
  Eff.modify (onVegas fun v => { v with
    intensity := intensity, lastSatVb := currentSatVb, lastUpdate := now })

def vegasReflex (costs : Option ChainCosts) : OnCycle ω τ π Unit :=
  if d.cfg.enableVegasReflex then
    match costs with
    | none => pure ()
    | some c => do
      let ma ← CycleRun.asking (ask d.evidence.mempoolMa24h)
      let vegasNow ← stamp d "vegas.update"
      vegasUpdate d c.satPerVbyte ma vegasNow
      Eff.modify fun s => { s with
        state := maybeWakeForVegasSpike (feeProfile K d.cfg.feeProfile).2 vegasNow s.state }
  else pure ()

def receivableRatio : Ask ω (Option Float) :=
  if d.cfg.nodeDrainBiasEnabled then do
    let channels ← ask d.evidence.nodeChannels
    pure (some (K.computeNodeReceivableRatio channels))
  else pure none

/-- The node-wide drain pressure, once per cycle. -/
def nodeDrainBias : OnCycle ω τ π Float := do
  let ratio ← CycleRun.asking (receivableRatio K d)
  let pressure := ratio.map fun r =>
    K.nodeDrainPressure r d.cfg.receivableRatioTarget d.cfg.receivableRatioFloor
  let cap := K.effectiveDrainDiscountMax d.cfg.drainFeeDiscountMax d.cfg.nodeDrainBiasEnabled
    d.cfg.nodeDrainBiasMax (pressure.getD 0.0)
  Eff.modify fun s => { s with state := { s.state with
    lastNodeReceivableRatio := ratio
    lastNodeDrainPressure := pressure
    lastEffectiveDrainDiscountMax := some cap } }
  pure cap

def clearDiagnostics (s : CycleRun ω τ π) : CycleRun ω τ π :=
  { s with state := { s.state with
      lastNodeReceivableRatio := none
      lastNodeDrainPressure := none
      lastEffectiveDrainDiscountMax := none } }

def journalDecisions (decisions : List FeeDecision) (s : CycleRun ω τ π) : CycleRun ω τ π :=
  if d.hasJournal then { s with journaled := s.journaled ++ decisions } else s

/-- Flush, summarize and journal once every row has been visited. -/
def finishCycle (t : Tally) : OnCycle ω τ π (List FeeDecision) := do
  flush K d t.dirty
  Eff.modify (summarize t)
  Eff.modify (journalDecisions d t.decisions)
  pure t.decisions

def visitChannels (channelStates : List ChannelStateRow) (now : ℤ) : OnCycle ω τ π Tally := do
  let channels ← CycleRun.asking (ask d.evidence.channelsInfo)
  let costs ← CycleRun.asking (ask d.evidence.chainCosts)
  vegasReflex K d costs
  let cap ← nodeDrainBias K d
  visitRows K d ⟨costs, cap⟩ channels ("fee-dryrun-" ++ toString now) now channelStates .empty

def runFeeCycle : OnCycle ω τ π (List FeeDecision) := do
  let now ← stamp d "cycle.started_at"
  Eff.modify clearDiagnostics
  if d.cfg.paused then do
    Eff.modify (setSummary "suppressed" "paused" (some "paused") true)
    pure []
  else do
    let channelStates ← CycleRun.asking (ask d.evidence.channelStates)
    if channelStates.isEmpty then do
      Eff.modify (setSummary "hold" "no_channel_state_data" (some "channel_state_data") false)
      pure []
    else do
      let tally ← visitChannels K d channelStates now
      finishCycle K d tally

end Run

end FeeCycle
