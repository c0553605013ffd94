import RevenueOps.FeeOwner

/-! The message handlers of the fee scheduler's owner, branch by branch in the order of the source.
A handler gives the owner it leaves and what it did outside the owner's memory. -/
namespace FeeOwner

open FeeRunway KeyedTable TriggerQueue

variable {κ φ ι τ : Type}

section Decision

def InitialFeeOutcome.disposition : InitialFeeOutcome → String
  | .passive => "new_channel_passive"
  | .governorDenied _ => "new_channel_governor_denied"
  | .wouldBroadcast _ => "new_channel_would_broadcast"

namespace InitialFeeDecision

/-- The receipt names the fee's reason and the governor's as two different things. -/
def detail (decision : InitialFeeDecision κ φ) : String :=
  match decision.outcome with
  | .passive => "PASSIVE policy: no fee action, no DTS state created"
  | .governorDenied governorReasonCode =>
    "SHADOW MODE, NOT APPLIED: fee_reason=" ++ decision.reasonCode ++
      " governor_denied (governor_reason_code=" ++ governorReasonCode ++
      "); no action, no post-broadcast state sync (a gossip-derived prior seed may still be recorded)"
  | .wouldBroadcast governorReasonCode =>
    "SHADOW MODE, NOT APPLIED: would-broadcast RECORDED ONLY (fee_reason=" ++ decision.reasonCode ++
      ", governor_reason_code=" ++ governorReasonCode ++
      "); no live mutation, no live broadcast call was made"

def staged (decision : InitialFeeDecision κ φ) : Option (φ × κ) :=
  match decision.feeState, decision.cycleState with
  | some fee, some cycle => some (fee, cycle)
  | _, _ => none

end InitialFeeDecision

end Decision

namespace CycleOwner

section Triggers

def handleTrigger (o : CycleOwner κ φ ι τ) (trigger : FeeTrigger) (now : ℤ)
    (woken : StateWrites κ φ)
    (detail : String) : Handled κ φ ι τ :=
  let offered := o.triggerQueue.offer trigger now
  let o := { o with triggerQueue := offered.2 }
  if offered.1 = .dropped then
    (o, o.recordTriggerReceipt trigger now false none
      "DROPPED: bounded trigger queue at capacity (backpressure)")
  else ({ o with state := o.state.write woken },
    o.recordTriggerReceipt trigger now (offered.1 = .coalesced) none detail)

def wokenDetail (woken : ℤ) : String :=
  "applied in-memory wake (" ++ toString woken ++
    " channel(s)); did not itself run a cycle -- the next scheduled cycle observes it"

def handleWakeAll (p : Pass κ φ ι) (o : CycleOwner κ φ ι τ) : Handled κ φ ι τ :=
  let woken := p.wakeAll o.state
  o.handleTrigger .wakeAll p.now woken.1 (wokenDetail woken.2)

def handlePolicyChanged (p : Pass κ φ ι) (o : CycleOwner κ φ ι τ) (peerId : String) :
    Handled κ φ ι τ :=
  let woken := p.handlePolicyChange o.state peerId
  o.handleTrigger (.policyChanged peerId) p.now woken.1 (wokenDetail woken.2)

def handleVegasSpikeCheck (p : Pass κ φ ι) (o : CycleOwner κ φ ι τ) : Handled κ φ ι τ :=
  let fired := p.vegasSpikeCheck o.state
  o.handleTrigger .vegasSpike p.now fired.1 ("edge-triggered check (fired=" ++ toString fired.2 ++
    "); did not itself run a cycle -- the next scheduled cycle observes it")

def handleForwardEvent (p : Pass κ φ ι) (o : CycleOwner κ φ ι τ) (channelId : String) :
    Handled κ φ ι τ :=
  o.handleTrigger (.forwardEvent channelId) p.now ⟨[], []⟩
    ("forward_event received; fee-nudge/posterior effect application is not yet wired to the " ++
      "scheduler (recording only) -- did not itself run a cycle")

end Triggers

section FailedForward

def failureNudgeGossipSettleSeconds : ℤ := 3600
def failureNudgeMinIntervalSeconds : ℤ := 1800

inductive NudgeOutcome (φ : Type) where
  | applied (impliedFee : ℤ) (feeState : φ)
  | skipped (reason : String)

/-- Inside a window of the seconds after a recorded time; a time of 0 records nothing. -/
def insideWindow (last : Option ℤ) (now seconds : ℤ) : Bool :=
  match last with
  | some ts => ts ≠ 0 ∧ now - ts < seconds
  | none => false

def stageFailureNudge (K : FeeKernel κ φ) (o : CycleOwner κ φ ι τ) (signal : FailedForwardSignal) :
    NudgeOutcome φ :=
  if signal.channelId = "" then .skipped "no outgoing channel on the event" else
  if !K.isFeeRelevantFailure signal.failcode signal.failreason then
    .skipped "not a fee-relevant failure (audit DTS-4b)" else
  if insideWindow (o.lastFeeApplyTs.get? signal.channelId) signal.eventTs
      failureNudgeGossipSettleSeconds then
    .skipped "inside the gossip-settle window after our own apply" else
  if insideWindow (o.lastFailureNudgeTs.get? signal.channelId) signal.eventTs
      failureNudgeMinIntervalSeconds then
    .skipped "rate limited: already nudged this window" else
  match o.state.feeStates.get? signal.channelId with
  | none =>
      .skipped ("no persisted DTS evidence for this channel: a failed forward must never be a " ++
      "channel's first posterior evidence")
  | some feeState =>
    if K.lastFeePpm feeState ≤ 0 then
      .skipped "channel has no positive current fee to imply from"
    else
      let impliedFee := K.failedForwardImpliedFee (K.lastFeePpm feeState)
      .applied impliedFee
        (K.recordPosteriorNudge feeState impliedFee signal.amountMsat signal.eventTs)

/-- The one-channel commit of a staged nudge, with its receipt inside. -/
def nudgeCommit (K : FeeKernel κ φ) (signal : FailedForwardSignal) (coalesced : Bool)
    (impliedFee : ℤ) (cycleState : κ) (feeState : φ) : FeeCycleCommit where
  cycleId := K.failedForwardEventKey signal
  startedAt := signal.eventTs
  completedAt := signal.eventTs
  sourceCommit := K.sourceCommit
  binarySha256 := K.binarySha256
  stateRows :=
    [⟨signal.channelId, K.serializeStateEnvelope cycleState feeState, K.lastUpdate cycleState⟩]
  requests := []
  governor := []
  ledger := []
  outcomes := []
  pendingSeed := none
  triggerReceipt := some (buildReceipt (.failedForward signal.channelId) signal.eventTs coalesced
    (some (K.failedForwardEventKey signal, signal.eventTs))
    ("failed-forward posterior nudge APPLIED: target " ++ toString impliedFee ++ " ppm, weight " ++
      K.weightText signal.amountMsat ++
      " -- committed atomically with state; did not itself run a cycle")).row

def installNudge (o : CycleOwner κ φ ι τ) (signal : FailedForwardSignal) (feeState : φ)
    (generation : ℕ) : CycleOwner κ φ ι τ :=
  { o with
    state := { o.state with feeStates := o.state.feeStates.insert signal.channelId feeState }
    lastFailureNudgeTs := o.lastFailureNudgeTs.insert signal.channelId signal.eventTs
    appliedFailureNudgesPending := signal.channelId :: o.appliedFailureNudgesPending
    stateGeneration := some generation }

/-- What follows a cleared idempotency check: stage, commit, and install what committed. -/
def commitFailureNudge (K : FeeKernel κ φ) (r : StoreReplies) (o : CycleOwner κ φ ι τ)
    (signal : FailedForwardSignal) (coalesced : Bool) : Handled κ φ ι τ :=
  let receipt :=
    o.recordTriggerReceipt (.failedForward signal.channelId) signal.eventTs coalesced none
  match stageFailureNudge K o signal with
  | .skipped reason => (o, receipt
      ("failed-forward nudge NOT applied (" ++ reason ++ ") -- did not itself run a cycle"))
  | .applied impliedFee feeState =>
    match o.state.cycleStates.get? signal.channelId with
    | none => (o, receipt
        "failed-forward nudge NOT applied (no paired cycle state to persist atomically)")
    | some cycleState =>
      let commit := nudgeCommit K signal coalesced impliedFee cycleState feeState
      match r.commitFeeCycle commit with
      | .ok generation => (o.installNudge signal feeState generation, [.commitFeeCycle commit])
      | .error _ => (o.failedPersistence, .commitFeeCycle commit :: receipt
          ("PERSISTENCE FAILED: posterior nudge was not installed; atomic state/receipt " ++
            "commit rolled back"))

/-- The guards between the admission to the queue and the staging. -/
def evaluateFailedForward (K : FeeKernel κ φ) (r : StoreReplies) (o : CycleOwner κ φ ι τ)
    (signal : FailedForwardSignal) (coalesced : Bool) : Handled κ φ ι τ :=
  let receipt :=
    o.recordTriggerReceipt (.failedForward signal.channelId) signal.eventTs coalesced none
  match o.outOfCycleCommitRefusal with
  | some bootstrap => (o, receipt
      ("REFUSED (no decision, no state, no action): SeedOnce bootstrap is " ++ bootstrap.debug ++
        "; out-of-cycle commits require a complete committed bootstrap"))
  | none =>
    if coalesced ∧ signal.channelId ∈ o.appliedFailureNudgesPending then
      (o, receipt ("COALESCED: an earlier pending occurrence already committed one nudge; this " ++
        "occurrence made no state change")) else
    if !o.hasStore then (o.failedPersistence, []) else
    match r.cycleExists (K.failedForwardEventKey signal) with
    | .ok true =>
        (o, receipt ("DUPLICATE: failed-forward event " ++ K.failedForwardEventKey signal ++
        " already committed; no second nudge"))
    | .ok false => commitFailureNudge K r o signal coalesced
    | .error _ => (o.failedPersistence, receipt
        "PERSISTENCE FAILED: idempotency read failed; no nudge evaluated")

def handleFailedForward (K : FeeKernel κ φ) (r : StoreReplies) (o : CycleOwner κ φ ι τ)
    (signal : FailedForwardSignal) : Handled κ φ ι τ :=
  let offered := o.triggerQueue.offer (.failedForward signal.channelId) signal.eventTs
  let o := { o with triggerQueue := offered.2 }
  if offered.1 = .dropped then
    (o, o.recordTriggerReceipt (.failedForward signal.channelId) signal.eventTs false none
      "DROPPED: bounded trigger queue at capacity (backpressure); no nudge evaluated")
  else evaluateFailedForward K r o signal (offered.1 = .coalesced)

end FailedForward

section NewChannel

def initialFeeCommit (K : FeeKernel κ φ) (prepared : PreparedInitialFee ι)
    (decision : InitialFeeDecision κ φ) : FeeCycleCommit where
  cycleId := prepared.eventKey
  startedAt := prepared.eventTs
  completedAt := prepared.eventTs
  sourceCommit := K.sourceCommit
  binarySha256 := K.binarySha256
  stateRows := decision.staged.toList.map fun s =>
    ⟨prepared.channelId, K.serializeStateEnvelope s.2 s.1, K.lastUpdate s.2⟩
  requests := decision.action.toList.map fun action =>
    { channelId := prepared.channelId
      idempotencyKey := decision.governedTrace.map GovernedTrace.idempotencyKey
      oldFeePpm := action.oldFeePpm
      newFeePpm := action.clampedFeePpm
      feebaseMsat := action.expectedBaseFeeMsat
      htlcminMsat := action.htlcmin
      htlcmaxMsat := action.htlcmax
      message := action.message
      at_ := prepared.eventTs }
  governor := decision.governedTrace.toList.map fun trace =>
    ⟨prepared.channelId, trace.authorized, trace.reasonCode, trace.intentId, trace.idempotencyKey,
      prepared.eventTs⟩
  ledger := []
  outcomes :=
    [{ cycleTs := prepared.eventTs
       channelId := prepared.channelId
       wouldBroadcast := decision.action.isSome
       hasAlgorithmValues := decision.staged.isSome
       disposition := some decision.outcome.disposition
       skipGateComparable := false }]
  pendingSeed := none
  triggerReceipt := some (buildReceipt (.newChannel prepared.channelId) prepared.eventTs false none
    decision.detail).row

def installStaged (o : CycleOwner κ φ ι τ) (channelId : String) (staged : Option (φ × κ)) :
    CycleOwner κ φ ι τ :=
  match staged with
  | some (fee, cycle) => { o with
      state := ⟨o.state.cycleStates.insert channelId cycle,
        o.state.feeStates.insert channelId fee⟩ }
  | none => o

/-- The owner without the entry of a channel in flight. -/
def unparked (o : CycleOwner κ φ ι τ) (channelId : String) : CycleOwner κ φ ι τ :=
  { o with pendingInitialFees := o.pendingInitialFees.erase channelId }

/-- The awaited commit's own answer, with its entry already taken out of the pending map. -/
def settleCommit (o : CycleOwner κ φ ι τ) (channelId : String) (expectedPriorGeneration : ℕ)
    (staged : Option (φ × κ)) : Except String GuardedCommitOutcome → CycleOwner κ φ ι τ
  | .ok (.committed committedGeneration) =>
    if o.stateGeneration = some expectedPriorGeneration ∧
        committedGeneration = expectedPriorGeneration + 1 then
      { o with stateGeneration := some committedGeneration }.installStaged channelId staged
    else
      -- the store row stands, and the owner takes over a generation that is ahead of its own
      { o.conflicted with
        stateGeneration := if o.stateGeneration.any (· < committedGeneration)
          then some committedGeneration else o.stateGeneration }
  | .ok (.generationConflict _ found) => { o.conflicted with stateGeneration := some found }
  | .error _ => o.failedPersistence

def handleCommitResult (o : CycleOwner κ φ ι τ) (channelId eventKey : String) (generation : ℕ)
    (result : Except String GuardedCommitOutcome) : CycleOwner κ φ ι τ :=
  match o.pendingInitialFees.get? channelId with
  | some (.committing awaitedKey awaitedGeneration expectedPriorGeneration staged) =>
    if awaitedKey = eventKey ∧ awaitedGeneration = generation then
      (o.unparked channelId).settleCommit channelId expectedPriorGeneration staged result
    else o.conflicted
  | _ => o.conflicted

def decideAndDispatchCommit (K : FeeKernel κ φ) (p : Pass κ φ ι) (r : StoreReplies)
    (o : CycleOwner κ φ ι τ) (prepared : PreparedInitialFee ι) (generation : ℕ)
    (expectedPriorGeneration : ℕ) : Handled κ φ ι τ :=
  let decision := p.decideInitialFee prepared (o.state.feeStates.get? prepared.channelId)
    (o.state.cycleStates.get? prepared.channelId)
  let awaiting := { o with
    pendingInitialFees := o.pendingInitialFees.insert prepared.channelId
      (.committing prepared.eventKey generation expectedPriorGeneration decision.staged) }
  if !o.hasResultSink || !o.hasStore then
    ((awaiting.unparked prepared.channelId).failedPersistence, [])
  else match r.launchCommit with
    | .ok _ => (awaiting, [.dispatchCommit prepared.channelId prepared.eventKey generation
        (initialFeeCommit K prepared decision) expectedPriorGeneration])
    | .error e =>
        (awaiting.handleCommitResult prepared.channelId prepared.eventKey generation (.error e), [])

/-- The awaited idempotency check's own answer, with its entry already taken out. -/
def settleIdempotency (K : FeeKernel κ φ) (p : Pass κ φ ι) (r : StoreReplies)
    (o : CycleOwner κ φ ι τ)
    (channelId : String) (prepared : PreparedInitialFee ι) (generation : ℕ) :
    Except String (Bool × ℕ) → Handled κ φ ι τ
  | .ok (true, _) => o.dispatchA3Receipt r (.newChannel channelId) prepared.eventTs false
      ("DUPLICATE (event_key=" ++ prepared.eventKey ++
        "): an identical event was already durably committed; no decision was made, no entropy was drawn")
      "new_channel duplicate receipt"
  | .ok (false, storeGeneration) =>
    match o.stateGeneration with
    | some tracked => decideAndDispatchCommit K p r o prepared generation tracked
    | none =>
        decideAndDispatchCommit K p r { o with stateGeneration := some storeGeneration } prepared
        generation storeGeneration
  | .error e =>
      o.failedPersistence.dispatchA3Receipt r (.newChannel channelId) prepared.eventTs false
      ("REFUSED: idempotency check failed (" ++ e ++
        "); no decision was made, no entropy was drawn")
      "new_channel idempotency-failure refusal receipt"

def handleIdempotencyResult (K : FeeKernel κ φ) (p : Pass κ φ ι) (r : StoreReplies)
    (o : CycleOwner κ φ ι τ) (channelId eventKey : String) (generation : ℕ)
    (result : Except String (Bool × ℕ)) : Handled κ φ ι τ :=
  match o.pendingInitialFees.get? channelId with
  | some (.checkingIdempotency awaitedKey awaitedGeneration prepared) =>
    if awaitedKey = eventKey ∧ awaitedGeneration = generation then
      settleIdempotency K p r (o.unparked channelId) channelId prepared generation result
    else (o.conflicted, [])
  | _ => (o.conflicted, [])

/-- The idempotency check of an admitted occurrence, dispatched off the owner thread. -/
def dispatchIdempotencyCheck (K : FeeKernel κ φ) (p : Pass κ φ ι) (r : StoreReplies)
    (o : CycleOwner κ φ ι τ) (prepared : PreparedInitialFee ι) : Handled κ φ ι τ :=
  let generation := o.initialFeeDispatchSeq + 1
  let checking := { o with
    initialFeeDispatchSeq := generation
    pendingInitialFees := o.pendingInitialFees.insert prepared.channelId
      (.checkingIdempotency prepared.eventKey generation prepared) }
  match r.launchCycleExists with
  | .ok _ => (checking, [.dispatchCycleExists prepared.channelId prepared.eventKey generation])
  | .error e =>
      checking.handleIdempotencyResult K p r prepared.channelId prepared.eventKey generation
      (.error e)

/-- Only a newly enqueued occurrence goes on; every refusal leaves one receipt. -/
def admitNewChannel (K : FeeKernel κ φ) (p : Pass κ φ ι) (r : StoreReplies) (o : CycleOwner κ φ ι τ)
    (prepared : PreparedInitialFee ι) : TriggerOutcome → Handled κ φ ι τ
  | .dropped => o.dispatchA3Receipt r (.newChannel prepared.channelId) prepared.eventTs false
      "DROPPED: bounded trigger queue at capacity (backpressure); no decision was made"
      "new_channel dropped/coalesced receipt"
  | .coalesced => o.dispatchA3Receipt r (.newChannel prepared.channelId) prepared.eventTs true
      ("COALESCED: an earlier new_channel occurrence for this channel is already pending; this " ++
        "occurrence made NO decision and drew NO entropy -- the pending occurrence's outcome covers it")
      "new_channel dropped/coalesced receipt"
  | .enqueued =>
    match o.outOfCycleCommitRefusal with
    | some bootstrap =>
        o.dispatchA3Receipt r (.newChannel prepared.channelId) prepared.eventTs false
        ("REFUSED (no decision, no state, no action): SeedOnce bootstrap is " ++ bootstrap.debug ++
          "; out-of-cycle commits require a complete committed bootstrap")
        "new_channel bootstrap-incomplete refusal receipt"
    | none =>
      if o.pendingInitialFees.contains prepared.channelId then
        o.dispatchA3Receipt r (.newChannel prepared.channelId) prepared.eventTs false
          ("REFUSED: a store operation for this channel is already in flight (fail-closed); no " ++
            "decision was made, no entropy was drawn")
          "new_channel in-flight race refusal receipt"
      else if !o.hasStore then
        o.failedPersistence.dispatchA3Receipt r
          (.newChannel prepared.channelId) prepared.eventTs false
          "REFUSED: no Rust-owned store configured; no decision was made"
          "new_channel no-store refusal receipt"
      else if !o.hasResultSink then
        o.failedPersistence.dispatchA3Receipt r
          (.newChannel prepared.channelId) prepared.eventTs false
          "REFUSED: owner has no result sink for commit-result routing; no decision was made"
          "new_channel no-result-sink refusal receipt"
      else o.dispatchIdempotencyCheck K p r prepared

def handleNewChannel (K : FeeKernel κ φ) (p : Pass κ φ ι) (r : StoreReplies)
    (o : CycleOwner κ φ ι τ)
    (prepared : PreparedInitialFee ι) : Handled κ φ ι τ :=
  let offered := o.triggerQueue.offer (.newChannel prepared.channelId) prepared.eventTs
  { o with triggerQueue := offered.2 }.admitNewChannel K p r prepared offered.1

def handleNewChannelRefused (r : StoreReplies) (o : CycleOwner κ φ ι τ)
    (peerId channelHint : String) (eventTs : ℤ) (reason : String) : Handled κ φ ι τ :=
  let trigger := FeeTrigger.newChannel (if channelHint = "" then peerId else channelHint)
  let offered := o.triggerQueue.offer trigger eventTs
  { o with triggerQueue := offered.2 }.dispatchA3Receipt r trigger eventTs
    (decide (offered.1 = TriggerOutcome.coalesced))
    ("REFUSED (no decision, no state, no action): " ++ reason ++
      if offered.1 = TriggerOutcome.dropped then
        " [ALSO DROPPED: bounded trigger queue at capacity]" else "")
    "new_channel preparation-refusal receipt"

end NewChannel

end CycleOwner

end FeeOwner
