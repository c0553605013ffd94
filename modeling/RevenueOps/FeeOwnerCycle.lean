import RevenueOps.FeeOwnerHandlers

/-! The cycles of the fee scheduler's owner: hydration, the pass over the channels and its commit,
and the slot in which one prepared cycle waits for the new channels in flight. -/
namespace FeeOwner

open FeeRunway KeyedTable TriggerQueue

variable {κ φ ι τ : Type}

inductive HydrationRefusal where
  | noStore
  | alreadyRefused
  | loadFailed (e : String)
  | bindingFailed (generation : ℕ) (binding : SeedBindingState)
  | bindingUnreadable (e : String)
  | noRows (generation : ℕ)
  | corruptRow (generation : ℕ) (e : String)
  | rowsAtGenerationZero
  | seedRefused
  | markerFailed (e : String)
  deriving DecidableEq, Repr

/-- Every row is read before any is installed. -/
def rehydrateFromRows (K : FeeKernel κ φ) (rows : List FeeStateRow) :
    Except String (StateWrites κ φ) := do
  let states ← rows.mapM fun row => do
    let state ← K.rehydrateRow row
    pure (row.channelId, state)
  pure ⟨states.map fun s => (s.1, s.2.1), states.map fun s => (s.1, s.2.2)⟩

/-- The owner and the effects of a hydration, with the refusal if it refused. -/
abbrev Hydration (κ φ ι τ : Type) := Handled κ φ ι τ × Option HydrationRefusal

structure CycleRun (κ φ ι τ : Type) where
  owner : CycleOwner κ φ ι τ
  effects : List (OwnerEffect ι τ)
  outcome : CycleOutcome
  cycleId : Option String

namespace CycleOwner

section Hydration

/-- A store of generation 1 or later is the only source, once its binding is verified. -/
def hydrateStored (K : FeeKernel κ φ) (r : StoreReplies) (o : CycleOwner κ φ ι τ)
    (stored : FeeStateSnapshot) : Hydration κ φ ι τ :=
  match r.verifiedSeedBinding with
  | .ok (.verifiedBound _) =>
    if stored.rows.isEmpty then ((o, []), some (.noRows stored.generation)) else
    match rehydrateFromRows K stored.rows with
    | .ok states => (({ o with state := .hydrated states }, []), none)
    | .error e => ((o, []), some (.corruptRow stored.generation e))
  | .ok binding => ((o, []), some (.bindingFailed stored.generation binding))
  | .error e => ((o, []), some (.bindingUnreadable e))

/-- A virgin store takes the Python snapshot, whose provenance waits for the first commit. -/
def hydrateVirgin (p : Pass κ φ ι) (o : CycleOwner κ φ ι τ) (stored : FeeStateSnapshot) :
    Hydration κ φ ι τ :=
  if !stored.rows.isEmpty then ((o, []), some .rowsAtGenerationZero) else
  match p.seedOnceFromPython with
  | .seeded event states =>
      (({ o with state := .hydrated states, pendingSeed := some event }, []), none)
  | .refused event =>
      (({ o with seedRefused := true }, [.recordSeedRefusal event]), some .seedRefused)

/-- The restart marker closes a hydration, or takes it back. -/
def markRestart (r : StoreReplies) (o : CycleOwner κ φ ι τ) (generation : ℕ) : Hydration κ φ ι τ :=
  match r.recordRestartMarker with
  | .ok _ => (({ o with stateGeneration := some generation }, []), none)
  | .error e => (({ o with state := .empty, pendingSeed := none }, []), some (.markerFailed e))

def seedOnceHydrate (K : FeeKernel κ φ) (p : Pass κ φ ι) (r : StoreReplies)
    (o : CycleOwner κ φ ι τ) :
    Hydration κ φ ι τ :=
  if !o.hasStore then ((o, []), some .noStore) else
  if o.seedRefused then ((o, []), some .alreadyRefused) else
  match r.loadLatestState with
  | .error e => ((o, []), some (.loadFailed e))
  | .ok stored =>
    let sourced :=
      if 0 < stored.generation then o.hydrateStored K r stored else o.hydrateVirgin p stored
    match sourced.2 with
    | some _ => sourced
    | none => sourced.1.1.markRestart r stored.generation

/-- The lifecycle's own hydration at the top of a cycle. -/
def hydrate (K : FeeKernel κ φ) (p : Pass κ φ ι) (r : StoreReplies) (o : CycleOwner κ φ ι τ) :
    Hydration κ φ ι τ :=
  match o.lifecycle with
  | .rehydratePerCycle => (({ o with state := .hydrated p.pythonRows }, []), none)
  | .seedOnce =>
    if o.hydratedOnce then ((o, []), none) else
    let seeded := o.seedOnceHydrate K p r
    match seeded.2 with
    | some _ => seeded
    | none => (({ seeded.1.1 with hydratedOnce := true }, seeded.1.2), none)

end Hydration

section Cycle

/-- The store's samples are refreshed before the snapshot freezes, or only read where no chain
costs were resolved. -/
def refreshAutonomousMempoolEvidence (r : StoreReplies) (o : CycleOwner κ φ ι τ)
    (prepared : PreparedCycle ι) : Except String Unit :=
  if !prepared.enableVegasReflex || !o.hasStore then .ok ()
  else if prepared.chainCosts then r.refreshMempoolWindow
  else r.queryMempoolSamplesSince

/-- The gates before a cycle touches the owner's memory. -/
def cycleEvidence (p : Pass κ φ ι) (r : StoreReplies) (o : CycleOwner κ φ ι τ)
    (prepared : PreparedCycle ι) : Except CycleOutcome Evidence :=
  match resolveMinCompetitors prepared.minCompetitors with
  | none => .error .skippedMinCompetitors
  | some _ =>
    let mempool : Except String Unit :=
      match o.lifecycle with
      | .rehydratePerCycle => .ok ()
      | .seedOnce => o.refreshAutonomousMempoolEvidence r prepared
    match mempool with
    | .error _ => .error .skippedAutonomousEvidence
    | .ok _ =>
      match p.evidence prepared with
      | none => .error .skippedEvidence
      | some evidence => .ok evidence

/-- The first time a peer is seen its policy's time is only noted. -/
def detectPolicyChange (p : Pass κ φ ι) (evidence : Evidence) (o : CycleOwner κ φ ι τ)
    (peerId : String) : Handled κ φ ι τ :=
  match evidence.policyUpdatedAt peerId with
  | none => (o, [])
  | some updatedAt =>
    let noted := { o with lastPolicyUpdatedAt := o.lastPolicyUpdatedAt.insert peerId updatedAt }
    match o.lastPolicyUpdatedAt.get? peerId with
    | none => (noted, [])
    | some prev => if prev < updatedAt then noted.handlePolicyChanged p peerId else (o, [])

/-- The peers in the order of their channels, each one once. -/
def detectPolicyChanges (p : Pass κ φ ι) (evidence : Evidence) :
    List String → List String → CycleOwner κ φ ι τ → Handled κ φ ι τ
  | _, [], o => (o, [])
  | seen, peerId :: peers, o =>
    if peerId = "" ∨ peerId ∈ seen then detectPolicyChanges p evidence seen peers o
    else
      let detected := o.detectPolicyChange p evidence peerId
      let rest := detectPolicyChanges p evidence (peerId :: seen) peers detected.1
      (rest.1, detected.2 ++ rest.2)

/-- Every channel with both states, whether the cycle touched it or not. -/
def stateRows (K : FeeKernel κ φ) (s : ControllerState κ φ) : List FeeStateRow :=
  s.cycleStates.rows.filterMap fun entry =>
    (s.feeStates.get? entry.1).map fun fee =>
      ⟨entry.1, K.serializeStateEnvelope entry.2 fee, K.lastUpdate entry.2⟩

def buildCycleCommit (K : FeeKernel κ φ) (o : CycleOwner κ φ ι τ) (now : ℤ)
    (decisions : CycleDecisions) : FeeCycleCommit where
  cycleId :=
    "rust-fee-" ++ toString now ++ "-" ++ toString K.processId ++ "-" ++ toString o.commitSeq
  startedAt := now
  completedAt := now
  sourceCommit := K.sourceCommit
  binarySha256 := K.binarySha256
  stateRows := stateRows K o.state
  requests := decisions.requests
  governor := decisions.governor
  ledger := []
  outcomes := decisions.outcomes
  pendingSeed := o.pendingSeed
  triggerReceipt := none

def scheduleRetentionSweep (r : StoreReplies) (o : CycleOwner κ φ ι τ) (now : ℤ) :
    Handled κ φ ι τ :=
  if o.retention.inFlight || !o.hasResultSink || !o.hasStore then (o, []) else
  match r.launchRetentionSweep with
  | .ok _ =>
      ({ o with retention := { o.retention with inFlight := true } }, [.dispatchRetentionSweep now])
  | .error _ =>
      ({ o with retention := { o.retention with failures := o.retention.failures + 1 } }, [])

/-- The pass over the channels, and under SeedOnce the commit of every state with its audit. -/
def decideAndCommit (K : FeeKernel κ φ) (p : Pass κ φ ι) (r : StoreReplies) (o : CycleOwner κ φ ι τ)
    (prepared : PreparedCycle ι) : CycleRun κ φ ι τ :=
  let pass := p.runFeeCycle o.state prepared
  let o := { o with state := o.state.write pass.2 }
  match pass.1 with
  | none => ⟨o, [], .skippedDecisionInput, none⟩
  | some decisions =>
    let outcome := CycleOutcome.ran decisions.decisions decisions.adjustedChannels
    match o.lifecycle with
    | .rehydratePerCycle => ⟨o, [], outcome, none⟩
    | .seedOnce =>
      let commit := o.buildCycleCommit K p.now decisions
      let o := { o with commitSeq := o.commitSeq + 1 }
      match r.commitFeeCycle commit with
      | .ok generation =>
        let swept :=
          { o with stateGeneration := some generation, pendingSeed := none }.scheduleRetentionSweep
          r p.now
        ⟨swept.1, .commitFeeCycle commit :: swept.2, outcome, some commit.cycleId⟩
      | .error _ => ⟨o.failedPersistence, [.commitFeeCycle commit], .persistenceFailed, none⟩

def runCycleBody (K : FeeKernel κ φ) (p : Pass κ φ ι) (r : StoreReplies) (o : CycleOwner κ φ ι τ)
    (prepared : PreparedCycle ι) : CycleRun κ φ ι τ :=
  match o.cycleEvidence p r prepared with
  | .error outcome => ⟨o, [], outcome, none⟩
  | .ok evidence =>
    let watched := detectPolicyChanges p evidence [] evidence.peers o
    let hydration := watched.1.hydrate K p r
    match hydration.2 with
    | some _ => ⟨hydration.1.1, watched.2 ++ hydration.1.2, .skippedStateUnavailable, none⟩
    | none =>
      let run := hydration.1.1.decideAndCommit K p r prepared
      { run with effects := watched.2 ++ hydration.1.2 ++ run.effects }

/-- A cycle empties the trigger queue first, whatever becomes of it. -/
def runCycle (K : FeeKernel κ φ) (p : Pass κ φ ι) (r : StoreReplies) (o : CycleOwner κ φ ι τ)
    (prepared : PreparedCycle ι) : CycleOutcome × Handled κ φ ι τ :=
  let offered := o.triggerQueue.offer .fixedInterval p.now
  let drained := { o with triggerQueue := offered.2.drainAll, appliedFailureNudgesPending := [] }
  let run := drained.runCycleBody K p r prepared
  let o := { run.owner with
    lastCycleAt := some p.now, lastCycleOutcome := some (describeCycleOutcome run.outcome) }
  let cycle := run.cycleId.map fun id => (id, p.now)
  (run.outcome, o, .ran prepared drained.pendingInitialFees.rows.length :: run.effects ++
    o.recordTriggerReceipt .fixedInterval p.now (offered.1 = .coalesced) cycle
      (describeCycleOutcome run.outcome))

end Cycle

section Deferral

def cycleCompletion (o : CycleOwner κ φ ι τ) : CycleOutcome → Except String FeeCycleCompletion
  | .ran _ adjustedChannels => .ok ⟨adjustedChannels, o.stateGeneration, o.lastCycleAt.getD 0⟩
  | outcome => .error (describeCycleOutcome outcome)

/-- A cycle that meets a new channel in flight takes the slot, over an older one. -/
def deferCycle (o : CycleOwner κ φ ι τ) (prepared : PreparedCycle ι) : Handled κ φ ι τ :=
  match o.deferredCycle with
  | some older => ({ o with
      deferredCyclesSuperseded := o.deferredCyclesSuperseded + 1
      deferredCycle := some prepared }, [.superseded older prepared])
  | none => ({ o with deferredCycle := some prepared }, [])

def runOrDeferCycle (K : FeeKernel κ φ) (p : Pass κ φ ι) (r : StoreReplies) (o : CycleOwner κ φ ι τ)
    (prepared : PreparedCycle ι) : Option CycleOutcome × Handled κ φ ι τ :=
  if o.pendingInitialFees.isEmpty then
    let run := o.runCycle K p r prepared
    (some run.1, run.2)
  else (none, o.deferCycle prepared)

def runOrDeferCycleWithAck (K : FeeKernel κ φ) (p : Pass κ φ ι) (r : StoreReplies)
    (o : CycleOwner κ φ ι τ) (prepared : PreparedCycle ι) (completion : τ) : Handled κ φ ι τ :=
  let priorCompletion := if o.pendingInitialFees.isEmpty then none else o.deferredCycleAck
  let taken := if o.pendingInitialFees.isEmpty then o else { o with deferredCycleAck := none }
  let run := taken.runOrDeferCycle K p r prepared
  match run.1 with
  | some outcome => (run.2.1, run.2.2 ++ [.answered completion (run.2.1.cycleCompletion outcome)])
  | none => ({ run.2.1 with deferredCycleAck := some completion },
      run.2.2 ++ priorCompletion.toList.map fun prior =>
        .answered prior (.error "deferred cycle superseded before execution"))

def applyRetention (o : CycleOwner κ φ ι τ) (now : ℤ) :
    Except String RetentionReport → CycleOwner κ φ ι τ
  | .ok report => { o with retention := { o.retention with
      inFlight := false
      sweepsCompleted := o.retention.sweepsCompleted + 1
      lastSweepAt := some now
      truncatedSince := if report.truncated then
        some (o.retention.truncatedSince.getD now) else none } }
  | .error _ => { o with retention := { o.retention with
      inFlight := false
      failures := o.retention.failures + 1 } }

def applyStoreResult (K : FeeKernel κ φ) (p : Pass κ φ ι) (r : StoreReplies)
    (o : CycleOwner κ φ ι τ) :
    InitialFeeStoreResult → Handled κ φ ι τ
  | .receipt _ (.ok _) => (o, [])
  | .receipt _ (.error _) => (o.failedPersistence, [])
  | .idempotency channelId eventKey generation result =>
    o.handleIdempotencyResult K p r channelId eventKey generation result
  | .commit channelId eventKey generation result =>
    (o.handleCommitResult channelId eventKey generation result, [])
  | .retention result => (o.applyRetention p.sweptAt result, [])

/-- The completion channel of the waiting cycle hears what became of it. -/
def answerDeferred (outcome : CycleOutcome) (h : Handled κ φ ι τ) : Handled κ φ ι τ :=
  match h.1.deferredCycleAck with
  | none => h
  | some completion => ({ h.1 with deferredCycleAck := none },
      h.2 ++ [.answered completion (h.1.cycleCompletion outcome)])

/-- The waiting cycle runs as soon as no new channel is in flight. -/
def resumeDeferredCycle (K : FeeKernel κ φ) (p : Pass κ φ ι) (r : StoreReplies)
    (o : CycleOwner κ φ ι τ) : Handled κ φ ι τ :=
  if o.pendingInitialFees.isEmpty then
    match o.deferredCycle with
    | none => (o, [])
    | some prepared =>
      let run := { o with deferredCycle := none }.runCycle K p r prepared
      answerDeferred run.1 run.2
  else (o, [])

def handleInitialFeeStoreResult (K : FeeKernel κ φ) (p : Pass κ φ ι) (r : StoreReplies)
    (o : CycleOwner κ φ ι τ) (result : InitialFeeStoreResult) : Handled κ φ ι τ :=
  let applied := o.applyStoreResult K p r result
  let resumed := applied.1.resumeDeferredCycle K p r
  (resumed.1, applied.2 ++ resumed.2)

end Deferral

end CycleOwner

section Loop

inductive CycleMsg (ι τ : Type) where
  | runPrepared (prepared : PreparedCycle ι) (completion : Option τ)
  | newChannel (prepared : PreparedInitialFee ι)
  | newChannelRefused (peerId channelHint : String) (eventTs : ℤ) (reason : String)
  | initialFeeStoreResult (result : InitialFeeStoreResult)
  | failedForward (signal : FailedForwardSignal)
  | policyChanged (peerId : String) (channelStatesRead : Bool)
  | vegasSpikeCheck
  | wakeAll
  | forwardEvent (channelId : String)

def CycleOwner.handle (K : FeeKernel κ φ) (p : Pass κ φ ι) (r : StoreReplies)
    (o : CycleOwner κ φ ι τ) :
    CycleMsg ι τ → Handled κ φ ι τ
  | .runPrepared prepared (some completion) => o.runOrDeferCycleWithAck K p r prepared completion
  | .runPrepared prepared none => (o.runOrDeferCycle K p r prepared).2
  | .newChannel prepared => o.handleNewChannel K p r prepared
  | .newChannelRefused peerId channelHint eventTs reason =>
    o.handleNewChannelRefused r peerId channelHint eventTs reason
  | .initialFeeStoreResult result => o.handleInitialFeeStoreResult K p r result
  | .failedForward signal => o.handleFailedForward K r signal
  | .policyChanged peerId channelStatesRead =>
    if channelStatesRead then o.handlePolicyChanged p peerId else (o, [])
  | .vegasSpikeCheck => o.handleVegasSpikeCheck p
  | .wakeAll => o.handleWakeAll p
  | .forwardEvent channelId => o.handleForwardEvent p channelId

end Loop

end FeeOwner
