import RevenueOps.FeeExecution
import RevenueOps.KeyedDict
import RevenueOps.RustFloat
import RevenueOps.ScopedState

/-! What a fee cycle reads, owns and reports: the evidence and its clock, the state of each
channel, and the arithmetic of the sibling modules. Evidence, clock, random stream, authorizer
and state sink answer from a world of which nothing is assumed; each call may fail. -/
namespace FeeCycle

open KeyedTable PeerPolicies RustNumber RustFloat FallibleState

section Evidence

structure ChannelInfo where
  channelId : String
  capacitySats : ℤ
  spendableMsat : ℤ
  feeBaseMsat : ℤ
  feeProportionalMillionths : ℤ
  htlcMaximumMsat : ℤ
  opener : String
  hasHtlcData : Bool
  maxAcceptedHtlcs : ℤ
  ourHtlcsInFlight : ℤ

/-- The live channels. Each one is stored under its own channel id. -/
abbrev ChannelsInfo := Table ChannelInfo String ChannelInfo.channelId

structure ChannelStateRow where
  channelId : String
  peerId : String
  state : String
  updatedAt : Option ℤ
  kalmanFlowRatio : Option Float
  kalmanVelocity : Option Float

structure GossipRow where
  source : String
  active : Bool
  feePerMillionth : ℤ
  satoshis : Option ℤ
  amountMsat : Option ℤ
  lastUpdate : ℤ
  baseFeeMsat : Option ℤ

structure GossipChannel where
  source : String
  destination : String
  feePpm : ℤ
  baseFeeMsat : ℤ
  capacitySats : ℤ
  lastUpdateTs : ℤ

def GossipRow.capacityForMedian (r : GossipRow) : ℤ :=
  max (r.satoshis.getD (r.amountMsat.getD 1000000 / 1000)) 1

def GossipRow.capacityForRank (r : GossipRow) : ℤ :=
  r.satoshis.getD (r.amountMsat.getD 0 / 1000)

def GossipRow.toGossipChannel (r : GossipRow) (destination : String) : GossipChannel :=
  ⟨r.source, destination, r.feePerMillionth, r.baseFeeMsat.getD (-1), r.capacityForMedian,
    r.lastUpdate⟩

structure ChainCosts where
  openCostSats : ℤ
  closeCostSats : ℤ
  satPerVbyte : Float

structure PeerLatency where
  avg : Float
  std : Float

structure FlowWindow where
  outSats : ℤ
  inSats : ℤ

structure RebalanceCostSample where
  costSats : ℤ
  amountSats : ℤ
  timestamp : ℤ

structure PeerFeeHistory where
  confidence : String
  avgFeePpm : ℤ

structure NodeChannel where
  state : String
  toUsMsat : ℤ
  totalMsat : ℤ

/-- An answer of the world outside, which the question may change. -/
abbrev Reply (ω α : Type) := ω → Except DecisionInputError α × ω

structure FeeEvidence (ω : Type) where
  ourNodeId : Reply ω String
  channelStates : Reply ω (List ChannelStateRow)
  channelsInfo : Reply ω ChannelsInfo
  chainCosts : Reply ω (Option ChainCosts)
  volumeSince : String → ℤ → Reply ω ℤ
  forwardCountSince : String → ℤ → Reply ω ℤ
  explorationFlag : String → Reply ω Bool
  clearExplorationFlag : String → Reply ω Unit
  gossipChannels : String → Reply ω (List GossipRow)
  capturedNeighborFeeMedian : String → Reply ω (Option (Option ℤ))
  capturedNeighborFeePercentile : String → Float → Reply ω (Option (Option ℤ))
  peerLatency : String → Reply ω (Option PeerLatency)
  channelCostHistory : String → ℤ → Reply ω (List RebalanceCostSample)
  peerFeeHistory : String → Reply ω (Option PeerFeeHistory)
  lastForwardTime : String → Reply ω (Option ℤ)
  flowWindow : String → Reply ω (Option FlowWindow)
  policy : String → Reply ω (Option PeerPolicy)
  marginalRoiPercent : String → Reply ω (Option Float)
  temporaryOverlayActive : String → Reply ω Bool
  mempoolMa24h : Reply ω Float
  nodeChannels : Reply ω (List NodeChannel)

end Evidence

section Channel

inductive SharedField where
  | lastGossipRefresh
  | lastBroadcastAt
  | dynamicHtlcminBaselineMsat
  deriving DecidableEq, Repr

structure ChannelCycleState where
  lastRevenueRate : Float
  lastFeePpm : ℤ
  trendDirection : ℤ
  stepPpm : ℤ
  lastUpdate : ℤ
  lastBroadcastAt : ℤ
  consecutiveSameDirection : ℤ
  isSleeping : Bool
  sleepUntil : ℤ
  stableCycles : ℤ
  lastBroadcastFeePpm : ℤ
  lastState : String
  forwardCountSinceUpdate : ℤ
  lastVolumeSats : ℤ
  congestionActive : Bool
  congestionQuietCycles : ℤ
  congestionEntryFeePpm : ℤ
  pendingTargetPpm : ℤ
  lastGossipRefresh : ℤ
  dynamicHtlcminBaselineMsat : Option ℤ
  explicitShared : List SharedField

def ChannelCycleState.default : ChannelCycleState where
  lastRevenueRate := 0.0
  lastFeePpm := 0
  trendDirection := 1
  stepPpm := 50
  lastUpdate := 0
  lastBroadcastAt := 0
  consecutiveSameDirection := 0
  isSleeping := false
  sleepUntil := 0
  stableCycles := 0
  lastBroadcastFeePpm := 0
  lastState := "balanced"
  forwardCountSinceUpdate := 0
  lastVolumeSats := 0
  congestionActive := false
  congestionQuietCycles := 0
  congestionEntryFeePpm := 0
  pendingTargetPpm := 0
  lastGossipRefresh := 0
  dynamicHtlcminBaselineMsat := none
  explicitShared := []

/-- The Thompson posterior τ and the PID terms π are opaque to the cycle itself. -/
structure ChannelFeeState (τ π : Type) where
  thompson : τ
  lastRevenueRate : Float
  lastFeePpm : ℤ
  lastBroadcastFeePpm : ℤ
  lastUpdate : ℤ
  lastBroadcastAt : ℤ
  lastState : String
  isSleeping : Bool
  sleepUntil : ℤ
  stableCycles : ℤ
  forwardCountSinceUpdate : ℤ
  lastVolumeSats : ℤ
  algorithmVersion : String
  lastGossipRefresh : ℤ
  lastVegasMultiplier : Float
  pid : π
  lastFeeProfile : String
  lastContextKey : String
  lastTimeBucket : String
  lastCorridorRole : String
  lastContextualSampleUsed : Bool
  dynamicHtlcminBaselineMsat : Option ℤ
  explicitShared : List SharedField

def ChannelFeeState.default {τ π : Type} (thompson : τ) (pid : π) : ChannelFeeState τ π where
  thompson := thompson
  lastRevenueRate := 0.0
  lastFeePpm := 0
  lastBroadcastFeePpm := 0
  lastUpdate := 0
  lastBroadcastAt := 0
  lastState := "balanced"
  isSleeping := false
  sleepUntil := 0
  stableCycles := 0
  forwardCountSinceUpdate := 0
  lastVolumeSats := 0
  algorithmVersion := "dts_pid_v1"
  lastGossipRefresh := 0
  lastVegasMultiplier := 1.0
  pid := pid
  lastFeeProfile := "active"
  lastContextKey := ""
  lastTimeBucket := "normal"
  lastCorridorRole := "P"
  lastContextualSampleUsed := false
  dynamicHtlcminBaselineMsat := none
  explicitShared := []

variable {τ π : Type}

def ChannelCycleState.setLastBroadcastAt (c : ChannelCycleState) (t : ℤ) : ChannelCycleState :=
  { c with lastBroadcastAt := t, explicitShared := c.explicitShared.insert .lastBroadcastAt }

def ChannelCycleState.setLastGossipRefresh (c : ChannelCycleState) (t : ℤ) : ChannelCycleState :=
  { c with lastGossipRefresh := t, explicitShared := c.explicitShared.insert .lastGossipRefresh }

def ChannelFeeState.setLastBroadcastAt (f : ChannelFeeState τ π) (t : ℤ) : ChannelFeeState τ π :=
  { f with lastBroadcastAt := t, explicitShared := f.explicitShared.insert .lastBroadcastAt }

def ChannelFeeState.setLastGossipRefresh (f : ChannelFeeState τ π) (t : ℤ) :
    ChannelFeeState τ π :=
  { f with lastGossipRefresh := t, explicitShared := f.explicitShared.insert .lastGossipRefresh }

def ChannelCycleState.wakeUp (c : ChannelCycleState) : ChannelCycleState :=
  { c with isSleeping := false, sleepUntil := 0, stableCycles := 0 }

def ChannelFeeState.wakeUp (f : ChannelFeeState τ π) : ChannelFeeState τ π :=
  { f with isSleeping := false, sleepUntil := 0, stableCycles := 0 }

/-- A tracked broadcast fee far from the fee on chain is taken back to it. -/
def resyncBroadcastFee (tracked actualFeePpm : ℤ) : ℤ :=
  if 0 < actualFeePpm ∧ 0 < tracked ∧
      maxF64 100.0 (asF64 tracked * 0.5) < asF64 |actualFeePpm - tracked| then actualFeePpm
  else tracked

def ChannelCycleState.resync (c : ChannelCycleState) (actualFeePpm : ℤ) : ChannelCycleState :=
  { c with lastBroadcastFeePpm := resyncBroadcastFee c.lastBroadcastFeePpm actualFeePpm }

def ChannelFeeState.resync (f : ChannelFeeState τ π) (actualFeePpm : ℤ) : ChannelFeeState τ π :=
  { f with lastBroadcastFeePpm := resyncBroadcastFee f.lastBroadcastFeePpm actualFeePpm }

end Channel

section Controller

structure VegasReflexState where
  intensity : Float
  decayRate : Float
  lastSatVb : Float
  lastUpdate : ℤ
  consecutiveSpikes : ℤ

def VegasReflexState.default : VegasReflexState := ⟨0.0, 0.85, 1.0, 0, 0⟩

structure DecisionSummary where
  action : String
  reason : String
  dominantInput : Option String
  safetyBlock : Bool

structure SkipGateEpoch where
  lastUpdate : ℤ
  isSleeping : Bool

structure ControllerState (τ π : Type) where
  cycleStates : Dict String ChannelCycleState
  feeStates : Dict String (ChannelFeeState τ π)
  vegas : VegasReflexState
  vegasWakeArmed : Bool
  lastDecisionSummary : DecisionSummary
  skipGatePrev : Dict String SkipGateEpoch
  skipGateSeen : Dict String SkipGateEpoch
  lastNodeReceivableRatio : Option Float
  lastNodeDrainPressure : Option Float
  lastEffectiveDrainDiscountMax : Option Float

def ControllerState.new {τ π : Type} : ControllerState τ π where
  cycleStates := .empty
  feeStates := .empty
  vegas := .default
  vegasWakeArmed := true
  lastDecisionSummary := ⟨"hold", "not_run", some "startup", false⟩
  skipGatePrev := .empty
  skipGateSeen := .empty
  lastNodeReceivableRatio := none
  lastNodeDrainPressure := none
  lastEffectiveDrainDiscountMax := none

structure FeeProfileSettings where
  minObservationHours : Float
  minForwardsForSignal : ℤ
  dtsDiscountGamma : Float
  dtsSparseDiscountGamma : Float
  normalTargetBlendRatio : Float
  wakeTargetBlendRatio : Float
  sparseTargetBlendRatio : Float
  normalCycleMaxDeltaRatio : Float
  normalCycleMinDeltaPpm : ℤ
  wakeCycleMaxDeltaRatio : Float
  wakeCycleMinDeltaPpm : ℤ

def activeProfile : FeeProfileSettings :=
  ⟨0.25, 3, 0.98, 0.992, 0.35, 0.15, 0.20, 0.50, 100, 0.20, 50⟩

def conservativeProfile : FeeProfileSettings :=
  ⟨1.0, 6, 0.992, 0.996, 0.20, 0.10, 0.10, 0.25, 25, 0.10, 10⟩

end Controller

section Kernel

structure ZeroFlowInputs where
  currentFee : ℤ
  targetFee : ℤ
  minFee : ℤ
  zeroRevenueStreak : ℤ
  forwardsSinceUpdate : ℤ
  revenueRate : Float
  supportedFeeCeiling : Option Float
  earningAnchorPpm : Option Float
  guardStreak : Option ℤ
  downshiftStreak : Option ℤ
  rateIsMeaningful : Option Bool

/-- The functions of the sibling modules that depend on their arguments alone. -/
structure Kernel (τ π : Type) where
  defaultThompson : τ
  defaultPid : π
  toLowercase : String → String
  /-- The text of a double with a fixed number of decimals. -/
  fixed : ℕ → Float → String
  pyPow : Float → Float → Float
  detectCongestion : ChannelStateRow → ChannelInfo → Float → ℤ → ℤ → Bool
  calculateFloor : ℤ → Option ChainCosts → Option PeerLatency → String → ℤ
  rebalanceCostFloor : String → List RebalanceCostSample → Option (String × ℤ) → ℤ → Option ℤ
  flowAdjustedCeiling : ℤ → ℤ → Option ℤ → ℤ → ℤ
  blendFeeTarget : ℤ → ℤ → Bool → Bool → Float → String → FeeProfileSettings → ℤ × Float
  applyDampedFeeTarget : ℤ → ℤ → Bool → FeeProfileSettings → ℤ × String × ℤ
  explorationFeeTarget : ℤ → ℤ → ℤ → Bool → Option ℤ → ℤ
  kalmanDemandFactor : Float → Float
  explorationStdThreshold : ℤ → Float
  zeroFlowStreakThresholds : Float → Float → ℤ × ℤ
  applyZeroFlowRatchetGuard : ZeroFlowInputs → ℤ × Option String
  drainFeeMultiplier : Float → ℤ → Float → Float → Float
  computeNodeReceivableRatio : List NodeChannel → Float
  nodeDrainPressure : Float → Float → Float → Float
  effectiveDrainDiscountMax : Float → Bool → Float → Float → Float
  neighborFeeMedian : List GossipChannel → String → ℕ → ℤ → Option ℤ
  neighborFeePercentile : List GossipChannel → String → Float → ℕ → ℤ → Option ℤ
  competitiveUndercutPct : ℕ → ℕ → ℤ → Bool → Float
  computeHtlcmaxMsat : FeeCfgSnapshot → ℤ → ℤ → String → Option ℤ
  deltaExceedsDeadband : ℤ → ℤ → Bool
  calculateMultiplier : π → Float → ℤ → String → ℤ → Float × π
  posteriorMean : τ → Float
  posteriorStd : τ → Float
  observationCount : τ → ℤ
  posteriorBiasIsEmpty : τ → Bool
  zeroRevenueStreak : τ → ℤ
  meaningfulGapEmaHours : τ → Float
  contextCount : τ → String → Option ℤ
  updatePosteriorAtTimes : τ → Float → Float → Float → String → Bool → ℤ → ℤ → ℤ → τ
  updateContextual : τ → String → Float → Float → String → ℤ → τ
  applyDtsDiscount : τ → Float → τ
  applyVegasAdjustment : τ → Float → Float → ℤ → τ
  recordPosteriorNudge : τ → Float → Float → ℤ → τ
  supportedFeeCeiling : τ → ℤ → Option Float → Option Float
  maybeUpwardProbeCap : τ → ℤ → Float → Option Float
  consumeUpwardProbe : τ → ℤ → τ
  earningRegionFee : τ → ℤ → Option Float
  isMeaningfulRate : τ → Float → ℤ → Bool

variable {τ π : Type} (K : Kernel τ π)

def feeProfile (name : String) : String × FeeProfileSettings :=
  if K.toLowercase name = "conservative" then ("conservative", conservativeProfile)
  else ("active", activeProfile)

def vegasFloorMultiplier (v : VegasReflexState) : Float :=
  if v.intensity < 0.01 then 1.0 else 1.0 + K.pyPow v.intensity 0.5 * 2.0

end Kernel

section Dependencies

inductive Executor (ω : Type) where
  /-- A fresh recorder; what it records is kept in the run. -/
  | recording
  | other (execute : FeeExecutionRequest → FeeCfgSnapshot → Reply ω SetFeeDecision)

structure CycleDeps (ω τ π : Type) where
  evidence : FeeEvidence ω
  cfg : FeeCfgSnapshot
  random : String → Reply ω Float
  /-- The sample moves the posterior, the random stream and the clock, also when it fails. -/
  sampleFeeContextual : τ → String → ℤ → ℤ → ω → Except DecisionInputError ℤ × τ × ω
  clock : String → Reply ω ℤ
  authorizer : Option (FeeAuthorizationRequest → Reply ω FeeAuthorizationResult)
  executor : Executor ω
  hasJournal : Bool
  stateSink : Option (List (String × ChannelCycleState × ChannelFeeState τ π) → Reply ω Unit)
  minCompetitors : ℕ

structure FeeDecision where
  channelId : String
  peerId : String
  oldFeePpm : ℤ
  newFeePpm : ℤ
  reason : String
  reasonCode : String
  wouldBroadcast : Bool
  governed : Option GovernedTrace
  cycleId : String
  atTime : ℤ

/-- Volume of the channel after the cursor and up to now. -/
structure Window where
  channelId : String
  cursor : ℤ
  now : ℤ
  deriving DecidableEq, Repr

/-- The run outside the controller: the world that answers, and what the cycle made of it. The
readings are the times that a boundary of the cycle took over; then what the recorder holds, what
the governor was asked, and which windows went into a posterior. -/
structure World (ω : Type) where
  env : ω
  readings : List ℤ
  actions : List PreparedFeeAction
  asked : List (FeeAuthorizationRequest × FeeAuthorizationResult)
  windows : List Window

def World.fresh {ω : Type} (env : ω) : World ω := ⟨env, [], [], [], []⟩

structure LearnRun (ω τ π : Type) where
  thompson : τ
  pid : π
  env : ω

structure ChannelRun (ω τ π : Type) where
  cycle : ChannelCycleState
  fee : ChannelFeeState τ π
  world : World ω

/-- The owner's state, the world, and what the journal was handed. -/
structure CycleRun (ω τ π : Type) where
  state : ControllerState τ π
  world : World ω
  journaled : List FeeDecision

variable {ω τ π α : Type}

abbrev Ask (ω α : Type) := Eff ω DecisionInputError α
abbrev Broadcast (ω α : Type) := Eff (World ω) DecisionInputError α
abbrev Learn (ω τ π α : Type) := Eff (LearnRun ω τ π) DecisionInputError α
abbrev OnChannel (ω τ π α : Type) := Eff (ChannelRun ω τ π) DecisionInputError α
abbrev OnCycle (ω τ π α : Type) := Eff (CycleRun ω τ π) DecisionInputError α

def ask (reply : Reply ω α) : Ask ω α := fun w => (Outcome.ofExcept (reply w).1, (reply w).2)

def clockNow (d : CycleDeps ω τ π) (label : String) : Ask ω ℤ := ask (d.clock label)

def World.outside : Part (World ω) ω := ⟨World.env, fun e w => { w with env := e }⟩

def LearnRun.outside : Part (LearnRun ω τ π) ω := ⟨LearnRun.env, fun e s => { s with env := e }⟩

def ChannelRun.outside : Part (ChannelRun ω τ π) ω :=
  ⟨fun s => s.world.env, fun e s => { s with world := { s.world with env := e } }⟩

def ChannelRun.broadcast : Part (ChannelRun ω τ π) (World ω) :=
  ⟨ChannelRun.world, fun w s => { s with world := w }⟩

def ChannelRun.learning : Part (ChannelRun ω τ π) (LearnRun ω τ π) :=
  ⟨fun s => ⟨s.fee.thompson, s.fee.pid, s.world.env⟩, fun l s =>
    { s with fee := { s.fee with thompson := l.thompson, pid := l.pid }
             world := { s.world with env := l.env } }⟩

def CycleRun.outside : Part (CycleRun ω τ π) ω :=
  ⟨fun s => s.world.env, fun e s => { s with world := { s.world with env := e } }⟩

def CycleRun.broadcast : Part (CycleRun ω τ π) (World ω) :=
  ⟨CycleRun.world, fun w s => { s with world := w }⟩

end Dependencies

end FeeCycle
