import RevenueOps.KeyedDict
import RevenueOps.TriggerQueue

/-! The owner thread of the fee scheduler. One message at a time it takes a failed forward into a
channel's posterior, walks a new channel through its idempotency check and its guarded commit,
or runs a cycle. What evidence, governor, random stream and fee algorithms give while a message
is handled is the Pass of that message; what the store answers are its StoreReplies. -/
namespace FeeOwner

open FeeRunway KeyedTable TriggerQueue

inductive StateLifecycle where
  | rehydratePerCycle
  | seedOnce
  deriving DecidableEq, Repr

inductive SeedOnceBootstrapState where
  | notStarted
  | pendingSeedCommit
  | refused
  | ready
  deriving DecidableEq, Repr

def SeedOnceBootstrapState.debug : SeedOnceBootstrapState → String
  | .notStarted => "NotStarted"
  | .pendingSeedCommit => "PendingSeedCommit"
  | .refused => "Refused"
  | .ready => "Ready"

section Messages

structure FailedForwardSignal where
  channelId : String
  amountMsat : ℤ
  failcode : Option ℤ
  failreason : Option String
  eventTs : ℤ
  deriving DecidableEq

structure PreparedInitialFee (ι : Type) where
  channelId : String
  eventTs : ℤ
  eventKey : String
  input : ι

structure PreparedCycle (ι : Type) where
  minCompetitors : Option ℤ
  enableVegasReflex : Bool
  chainCosts : Bool
  input : ι

def resolveMinCompetitors : Option ℤ → Option ℕ
  | some n => if 0 < n then some n.toNat else none
  | none => none

structure RetentionReport where
  truncated : Bool

inductive InitialFeeStoreResult where
  | idempotency (channelId eventKey : String) (generation : ℕ) (result : Except String (Bool × ℕ))
  | commit (channelId eventKey : String) (generation : ℕ)
      (result : Except String GuardedCommitOutcome)
  | receipt (context : String) (result : Except String Unit)
  | retention (result : Except String RetentionReport)

end Messages

section Controller

structure ControllerState (κ φ : Type) where
  cycleStates : Dict String κ
  feeStates : Dict String φ

/-- What a pass over the controller leaves in its maps. It inserts and replaces entries; nothing
ever takes one out. -/
structure StateWrites (κ φ : Type) where
  cycleStates : List (String × κ)
  feeStates : List (String × φ)

variable {κ φ ι : Type}

def ControllerState.empty : ControllerState κ φ := ⟨.empty, .empty⟩

def ControllerState.write (s : ControllerState κ φ) (w : StateWrites κ φ) :
    ControllerState κ φ where
  cycleStates := s.cycleStates.insertAll w.cycleStates
  feeStates := s.feeStates.insertAll w.feeStates

def ControllerState.hydrated (w : StateWrites κ φ) : ControllerState κ φ :=
  ControllerState.empty.write w

end Controller

section Kernel

/-- The functions of the scheduler's callees that depend on their arguments alone. -/
structure FeeKernel (κ φ : Type) where
  serializeStateEnvelope : κ → φ → String
  lastUpdate : κ → ℤ
  rehydrateRow : FeeStateRow → Except String (κ × φ)
  lastFeePpm : φ → ℤ
  isFeeRelevantFailure : Option ℤ → Option String → Bool
  failedForwardImpliedFee : ℤ → ℤ
  recordPosteriorNudge : φ → ℤ → ℤ → ℤ → φ
  weightText : ℤ → String
  failedForwardEventKey : FailedForwardSignal → String
  sourceCommit : String
  binarySha256 : String
  processId : ℤ

inductive InitialFeeOutcome where
  | passive
  | governorDenied (reasonCode : String)
  | wouldBroadcast (reasonCode : String)

structure InitialFeeAction where
  oldFeePpm : ℤ
  clampedFeePpm : ℤ
  expectedBaseFeeMsat : ℤ
  htlcmin : Option ℤ
  htlcmax : Option ℤ
  message : String

structure GovernedTrace where
  authorized : Bool
  reasonCode : String
  intentId : String
  idempotencyKey : String

structure InitialFeeDecision (κ φ : Type) where
  feeState : Option φ
  cycleState : Option κ
  action : Option InitialFeeAction
  governedTrace : Option GovernedTrace
  outcome : InitialFeeOutcome
  reasonCode : String

/-- What the policy watcher reads of an evidence snapshot: the peers of the channel states in
their order, and when each one's policy was updated. -/
structure Evidence where
  peers : List String
  policyUpdatedAt : String → Option ℤ

inductive SeedOutcome (κ φ : Type) where
  | seeded (event : FeeSeedEventRow) (states : StateWrites κ φ)
  | refused (event : FeeSeedEventRow)

/-- The decisions of one cycle, as its commit and its outcome count them. -/
structure CycleDecisions where
  decisions : ℕ
  adjustedChannels : ℕ
  requests : List PreparedFeeActionRow
  governor : List GovernorAuditRow
  outcomes : List ShadowCycleOutcomeRow

structure Pass (κ φ ι : Type) where
  now : ℤ
  sweptAt : ℤ
  evidence : PreparedCycle ι → Option Evidence
  wakeAll : ControllerState κ φ → StateWrites κ φ × ℤ
  vegasSpikeCheck : ControllerState κ φ → StateWrites κ φ × Bool
  handlePolicyChange : ControllerState κ φ → String → StateWrites κ φ × ℤ
  pythonRows : StateWrites κ φ
  seedOnceFromPython : SeedOutcome κ φ
  runFeeCycle : ControllerState κ φ → PreparedCycle ι → Option CycleDecisions × StateWrites κ φ
  decideInitialFee : PreparedInitialFee ι → Option φ → Option κ → InitialFeeDecision κ φ

structure FeeStateSnapshot where
  generation : ℕ
  rows : List FeeStateRow

/-- What the store answers while one message is handled; no handler asks twice. -/
structure StoreReplies where
  cycleExists : String → Except String Bool
  commitFeeCycle : FeeCycleCommit → Except String ℕ
  loadLatestState : Except String FeeStateSnapshot
  verifiedSeedBinding : Except String SeedBindingState
  recordRestartMarker : Except String Unit
  refreshMempoolWindow : Except String Unit
  queryMempoolSamplesSince : Except String Unit
  launchCycleExists : Except String Unit
  launchCommit : Except String Unit
  launchTriggerEvent : Except String Unit
  launchRetentionSweep : Except String Unit

end Kernel

section Owner

inductive PendingInitialFee (κ φ ι : Type) where
  | checkingIdempotency (eventKey : String) (generation : ℕ) (prepared : PreparedInitialFee ι)
  | committing (eventKey : String) (generation expectedPriorGeneration : ℕ)
      (staged : Option (φ × κ))

namespace PendingInitialFee

variable {κ φ ι : Type}

def eventKey : PendingInitialFee κ φ ι → String
  | .checkingIdempotency k _ _ => k
  | .committing k _ _ _ => k

def generation : PendingInitialFee κ φ ι → ℕ
  | .checkingIdempotency _ g _ => g
  | .committing _ g _ _ => g

end PendingInitialFee

structure RetentionState where
  inFlight : Bool
  failures : ℕ
  sweepsCompleted : ℕ
  lastSweepAt : Option ℤ
  truncatedSince : Option ℤ

structure CycleOwner (κ φ ι τ : Type) where
  state : ControllerState κ φ
  lastFeeApplyTs : Dict String ℤ
  lastFailureNudgeTs : Dict String ℤ
  appliedFailureNudgesPending : List String
  lastPolicyUpdatedAt : Dict String ℤ
  lifecycle : StateLifecycle
  hydratedOnce : Bool
  pendingSeed : Option FeeSeedEventRow
  seedRefused : Bool
  hasStore : Bool
  hasResultSink : Bool
  persistenceFailures : ℕ
  retention : RetentionState
  triggerQueue : Queue
  lastCycleAt : Option ℤ
  lastCycleOutcome : Option String
  pendingInitialFees : Dict String (PendingInitialFee κ φ ι)
  initialFeeDispatchSeq : ℕ
  initialFeeConflicts : ℕ
  stateGeneration : Option ℕ
  deferredCycle : Option (PreparedCycle ι)
  deferredCycleAck : Option τ
  deferredCyclesSuperseded : ℕ
  commitSeq : ℕ

inductive CycleOutcome where
  | ran (decisions adjustedChannels : ℕ)
  | skippedMinCompetitors
  | skippedEvidence
  | skippedDecisionInput
  | skippedStateUnavailable
  | skippedAutonomousEvidence
  | persistenceFailed
  deriving DecidableEq, Repr

def describeCycleOutcome : CycleOutcome → String
  | .ran decisions _ => "ran: " ++ toString decisions ++ " decision(s)"
  | .skippedMinCompetitors => "skipped: neighbor_median_min_competitors unresolvable"
  | .skippedEvidence => "skipped: evidence snapshot failed"
  | .skippedDecisionInput => "skipped: replayable decision input failed"
  | .skippedStateUnavailable => "skipped: SeedOnce state unavailable (fail-closed)"
  | .skippedAutonomousEvidence =>
    "skipped: autonomous mempool-evidence refresh failed (fail-closed, before " ++
      "             hydration)"
  | .persistenceFailed => "ran but PersistenceFailed: atomic commit failed, generation not advanced"

structure FeeCycleCompletion where
  adjustedChannels : ℕ
  generation : Option ℕ
  completedAt : ℤ
  deriving DecidableEq

/-- What the owner does outside its own memory, and what a watcher sees of its cycles. -/
inductive OwnerEffect (ι τ : Type) where
  | recordTriggerEvent (receipt : TriggerReceipt)
  | dispatchTriggerEvent (receipt : TriggerReceipt) (context : String)
  | commitFeeCycle (commit : FeeCycleCommit)
  | dispatchCycleExists (channelId eventKey : String) (generation : ℕ)
  | dispatchCommit (channelId eventKey : String) (generation : ℕ) (commit : FeeCycleCommit)
      (expectedPriorGeneration : ℕ)
  | dispatchRetentionSweep (now : ℤ)
  | recordSeedRefusal (event : FeeSeedEventRow)
  | ran (prepared : PreparedCycle ι) (pending : ℕ)
  | superseded (older newer : PreparedCycle ι)
  | answered (completion : τ) (reply : Except String FeeCycleCompletion)

abbrev Handled (κ φ ι τ : Type) := CycleOwner κ φ ι τ × List (OwnerEffect ι τ)

namespace CycleOwner

variable {κ φ ι τ : Type}

def triggerQueueCapacity : ℕ := 64

def new (lifecycle : StateLifecycle) (hasStore hasResultSink : Bool) : CycleOwner κ φ ι τ where
  state := .empty
  lastFeeApplyTs := .empty
  lastFailureNudgeTs := .empty
  appliedFailureNudgesPending := []
  lastPolicyUpdatedAt := .empty
  lifecycle := lifecycle
  hydratedOnce := false
  pendingSeed := none
  seedRefused := false
  hasStore := hasStore
  hasResultSink := hasResultSink
  persistenceFailures := 0
  retention := ⟨false, 0, 0, none, none⟩
  triggerQueue := .new triggerQueueCapacity
  lastCycleAt := none
  lastCycleOutcome := none
  pendingInitialFees := .empty
  initialFeeDispatchSeq := 0
  initialFeeConflicts := 0
  stateGeneration := none
  deferredCycle := none
  deferredCycleAck := none
  deferredCyclesSuperseded := 0
  commitSeq := 0

def bootstrapState (o : CycleOwner κ φ ι τ) : SeedOnceBootstrapState :=
  match o.lifecycle with
  | .rehydratePerCycle => .ready
  | .seedOnce =>
    if o.seedRefused then .refused
    else if !o.hydratedOnce then .notStarted
    else if o.pendingSeed.isSome then .pendingSeedCommit
    else .ready

/-- The gate of every commit outside a cycle. -/
def outOfCycleCommitRefusal (o : CycleOwner κ φ ι τ) : Option SeedOnceBootstrapState :=
  if o.bootstrapState = .ready then none else some o.bootstrapState

def failedPersistence (o : CycleOwner κ φ ι τ) : CycleOwner κ φ ι τ :=
  { o with persistenceFailures := o.persistenceFailures + 1 }

def conflicted (o : CycleOwner κ φ ι τ) : CycleOwner κ φ ι τ :=
  { o with initialFeeConflicts := o.initialFeeConflicts + 1 }

/-- A receipt whose loss is only logged. -/
def recordTriggerReceipt (o : CycleOwner κ φ ι τ) (trigger : FeeTrigger) (receivedAt : ℤ)
    (coalesced : Bool) (cycle : Option (String × ℤ)) (detail : String) : List (OwnerEffect ι τ) :=
  if o.hasStore then [.recordTriggerEvent (buildReceipt trigger receivedAt coalesced cycle detail)]
  else []

def dispatchA3Receipt (r : StoreReplies) (o : CycleOwner κ φ ι τ) (trigger : FeeTrigger)
    (receivedAt : ℤ) (coalesced : Bool) (detail context : String) : Handled κ φ ι τ :=
  if o.hasStore then
    match r.launchTriggerEvent with
    | .ok _ =>
        (o, [.dispatchTriggerEvent (buildReceipt trigger receivedAt coalesced none detail) context])
    | .error _ => (o.failedPersistence, [])
  else (o, [])

end CycleOwner

end Owner

end FeeOwner
