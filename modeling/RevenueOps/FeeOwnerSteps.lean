import RevenueOps.FeeOwnerCycle

/-! What each handler of the owner can do to the owner's memory, once for all callers. A handler
that only offers a trigger and leaves a receipt changes the queue and a counter. -/
namespace FeeOwner

open FeeRunway KeyedTable TriggerQueue CycleOwner

variable {κ φ ι τ : Type}

def OwnerEffect.isAudit : OwnerEffect ι τ → Bool
  | .recordTriggerEvent _ => true
  | .dispatchTriggerEvent _ _ => true
  | .dispatchRetentionSweep _ => true
  | _ => false

def Audit (es : List (OwnerEffect ι τ)) : Prop := ∀ e ∈ es, e.isAudit = true

theorem audit_nil : Audit ([] : List (OwnerEffect ι τ)) := by
  intro e he
  cases he

section Receipts

variable {o : CycleOwner κ φ ι τ} {r : StoreReplies}

theorem recordTriggerReceipt_audit {trigger : FeeTrigger} {at_ : ℤ} {coalesced : Bool}
    {cycle : Option (String × ℤ)} {detail : String} :
    Audit (o.recordTriggerReceipt trigger at_ coalesced cycle detail) := by
  unfold recordTriggerReceipt
  by_cases hstore : o.hasStore = true
  · rw [if_pos hstore]
    intro e he
    rw [List.mem_singleton.mp he]
    rfl
  · rw [if_neg hstore]
    exact audit_nil

def CycleOwner.noted (o : CycleOwner κ φ ι τ) (q : Queue) (failures : ℕ) : CycleOwner κ φ ι τ :=
  { o with triggerQueue := q, persistenceFailures := failures }

def Noted (o : CycleOwner κ φ ι τ) (h : Handled κ φ ι τ) : Prop :=
  ∃ q failures, h.1 = o.noted q failures ∧ Audit h.2

theorem dispatchA3Receipt_noted {trigger : FeeTrigger} {at_ : ℤ} {coalesced : Bool}
    {detail context : String} :
    Noted o (o.dispatchA3Receipt r trigger at_ coalesced detail context) := by
  unfold dispatchA3Receipt
  by_cases hstore : o.hasStore = true
  · rw [if_pos hstore]
    cases r.launchTriggerEvent with
    | ok u =>
      refine ⟨o.triggerQueue, o.persistenceFailures, rfl, ?_⟩
      intro e he
      rw [List.mem_singleton.mp he]
      rfl
    | error e => exact ⟨o.triggerQueue, o.persistenceFailures + 1, rfl, audit_nil⟩
  · rw [if_neg hstore]
    exact ⟨o.triggerQueue, o.persistenceFailures, rfl, audit_nil⟩

theorem Noted.of_noted {q : Queue} {n : ℕ} {h : Handled κ φ ι τ} (hn : Noted (o.noted q n) h) :
    Noted o h := by
  obtain ⟨q', n', ho, hes⟩ := hn
  exact ⟨q', n', ho, hes⟩

theorem noted_receipt {q : Queue} {n : ℕ} {es : List (OwnerEffect ι τ)} (hes : Audit es) :
    Noted o (o.noted q n, es) := ⟨q, n, rfl, hes⟩

theorem handleTrigger_spec (o : CycleOwner κ φ ι τ) (trigger : FeeTrigger) (now : ℤ)
    (woken : StateWrites κ φ) (detail : String) :
    ∃ q writes, (o.handleTrigger trigger now woken detail).1 =
        { o with triggerQueue := q, state := o.state.write writes } ∧
      Audit (o.handleTrigger trigger now woken detail).2 := by
  unfold handleTrigger
  by_cases hdropped : (o.triggerQueue.offer trigger now).1 = .dropped
  · simp only [hdropped, if_true]
    exact ⟨_, ⟨[], []⟩, rfl, recordTriggerReceipt_audit⟩
  · simp only [hdropped, if_false]
    exact ⟨_, woken, rfl, recordTriggerReceipt_audit⟩

end Receipts

section FailedForward

variable {K : FeeKernel κ φ} {r : StoreReplies} {o : CycleOwner κ φ ι τ}
  {signal : FailedForwardSignal}

theorem stageFailureNudge_applied {implied : ℤ} {feeState : φ}
    (h : stageFailureNudge K o signal = .applied implied feeState) :
    insideWindow (o.lastFailureNudgeTs.get? signal.channelId) signal.eventTs
        failureNudgeMinIntervalSeconds = false ∧
      ∃ before, o.state.feeStates.get? signal.channelId = some before ∧
        feeState = K.recordPosteriorNudge before implied signal.amountMsat signal.eventTs := by
  unfold stageFailureNudge at h
  by_cases hchannel : signal.channelId = ""
  · rw [if_pos hchannel] at h
    cases h
  rw [if_neg hchannel] at h
  by_cases hrelevant : (!K.isFeeRelevantFailure signal.failcode signal.failreason) = true
  · rw [if_pos hrelevant] at h
    cases h
  rw [if_neg hrelevant] at h
  by_cases hsettle : insideWindow (o.lastFeeApplyTs.get? signal.channelId) signal.eventTs
      failureNudgeGossipSettleSeconds = true
  · rw [if_pos hsettle] at h
    cases h
  rw [if_neg hsettle] at h
  by_cases hlimit : insideWindow (o.lastFailureNudgeTs.get? signal.channelId) signal.eventTs
      failureNudgeMinIntervalSeconds = true
  · rw [if_pos hlimit] at h
    cases h
  rw [if_neg hlimit] at h
  refine ⟨Bool.eq_false_iff.mpr hlimit, ?_⟩
  cases hstate : o.state.feeStates.get? signal.channelId with
  | none =>
    rw [hstate] at h
    cases h
  | some before =>
    rw [hstate] at h
    dsimp only at h
    by_cases hfee : K.lastFeePpm before ≤ 0
    · rw [if_pos hfee] at h
      cases h
    · rw [if_neg hfee] at h
      cases h
      exact ⟨before, rfl, rfl⟩

/-- What a failed forward can do: leave receipts, fail to commit, or commit and install. -/
inductive NudgeStep (K : FeeKernel κ φ) (r : StoreReplies) (o : CycleOwner κ φ ι τ)
    (signal : FailedForwardSignal) : Handled κ φ ι τ → Prop where
  | kept {h : Handled κ φ ι τ} (hn : Noted o h) : NudgeStep K r o signal h
  | failed (q : Queue) (n : ℕ) (commit : FeeCycleCommit) (e : String) (es : List (OwnerEffect ι τ))
      (hreply : r.commitFeeCycle commit = .error e) (hes : Audit es) :
      NudgeStep K r o signal (o.noted q n, .commitFeeCycle commit :: es)
  | applied (q : Queue) (coalesced : Bool) (implied : ℤ) (feeState : φ) (cycleState : κ)
      (generation : ℕ)
      (hready : o.outOfCycleCommitRefusal = none) (hstore : o.hasStore = true)
      (hstage : stageFailureNudge K o signal = .applied implied feeState)
      (hcycle : o.state.cycleStates.get? signal.channelId = some cycleState)
      (hreply : r.commitFeeCycle (nudgeCommit K signal coalesced implied cycleState feeState) =
        .ok generation) :
      NudgeStep K r o signal
        ((o.noted q o.persistenceFailures).installNudge signal feeState generation,
        [.commitFeeCycle (nudgeCommit K signal coalesced implied cycleState feeState)])

theorem commitFailureNudge_step {q : Queue} {coalesced : Bool}
    (hready : o.outOfCycleCommitRefusal = none) (hstore : o.hasStore = true) :
    NudgeStep K r o signal
      (commitFailureNudge K r (o.noted q o.persistenceFailures) signal coalesced) := by
  unfold commitFailureNudge
  have hstage : stageFailureNudge K (o.noted q o.persistenceFailures) signal =
      stageFailureNudge K o signal := rfl
  rw [hstage]
  cases hs : stageFailureNudge K o signal with
  | skipped reason => exact .kept (noted_receipt recordTriggerReceipt_audit)
  | applied implied feeState =>
    cases hcycle : o.state.cycleStates.get? signal.channelId with
    | none =>
      have hcycle' :
          (o.noted q o.persistenceFailures).state.cycleStates.get? signal.channelId = none :=
        hcycle
      simp only [hcycle']
      exact .kept (noted_receipt recordTriggerReceipt_audit)
    | some cycleState =>
      have hcycle' : (o.noted q o.persistenceFailures).state.cycleStates.get? signal.channelId =
          some cycleState := hcycle
      simp only [hcycle']
      cases hreply :
          r.commitFeeCycle (nudgeCommit K signal coalesced implied cycleState feeState) with
      | ok generation =>
        exact .applied q coalesced implied feeState cycleState generation hready hstore
          hs hcycle hreply
      | error e =>
        exact .failed q (o.persistenceFailures + 1) _ e _ hreply recordTriggerReceipt_audit

theorem evaluateFailedForward_step {q : Queue} {coalesced : Bool} :
    NudgeStep K r o signal
      (evaluateFailedForward K r (o.noted q o.persistenceFailures) signal coalesced) := by
  unfold evaluateFailedForward
  have hrefusal :
      (o.noted q o.persistenceFailures).outOfCycleCommitRefusal = o.outOfCycleCommitRefusal :=
    rfl
  rw [hrefusal]
  cases hready : o.outOfCycleCommitRefusal with
  | some bootstrap => exact .kept (noted_receipt recordTriggerReceipt_audit)
  | none =>
    dsimp only
    by_cases hpending : coalesced = true ∧
        signal.channelId ∈ (o.noted q o.persistenceFailures).appliedFailureNudgesPending
    · rw [if_pos hpending]
      exact .kept (noted_receipt recordTriggerReceipt_audit)
    rw [if_neg hpending]
    by_cases hstore : o.hasStore = true
    · have hstore' : (!(o.noted q o.persistenceFailures).hasStore) = false := by
        rw [show (o.noted q o.persistenceFailures).hasStore = o.hasStore from rfl, hstore]
        rfl
      rw [hstore', if_neg Bool.false_ne_true]
      cases r.cycleExists (K.failedForwardEventKey signal) with
      | error e => exact .kept (noted_receipt recordTriggerReceipt_audit)
      | ok found =>
        cases found with
        | true => exact .kept (noted_receipt recordTriggerReceipt_audit)
        | false => exact commitFailureNudge_step hready hstore
    · have hstore' : (!(o.noted q o.persistenceFailures).hasStore) = true := by
        rw [show (o.noted q o.persistenceFailures).hasStore = o.hasStore from rfl,
          Bool.eq_false_iff.mpr hstore]
        rfl
      rw [hstore', if_pos rfl]
      exact .kept (noted_receipt audit_nil)

theorem handleFailedForward_step (signal : FailedForwardSignal) :
    NudgeStep K r o signal (handleFailedForward K r o signal) := by
  unfold handleFailedForward
  by_cases hdropped :
      (o.triggerQueue.offer (.failedForward signal.channelId) signal.eventTs).1 = .dropped
  · simp only [hdropped]
    exact .kept (noted_receipt recordTriggerReceipt_audit)
  · simp only [hdropped, if_false]
    exact evaluateFailedForward_step

end FailedForward

section NewChannel

variable {K : FeeKernel κ φ} {p : Pass κ φ ι} {r : StoreReplies} {o : CycleOwner κ φ ι τ}
  {channelId eventKey : String} {generation : ℕ}

/-- The decision on a new channel, over the states that the owner holds for it. -/
def CycleOwner.initialDecision (p : Pass κ φ ι) (o : CycleOwner κ φ ι τ)
    (prepared : PreparedInitialFee ι) :
    InitialFeeDecision κ φ :=
  p.decideInitialFee prepared (o.state.feeStates.get? prepared.channelId)
    (o.state.cycleStates.get? prepared.channelId)

def CycleOwner.awaiting (p : Pass κ φ ι) (o : CycleOwner κ φ ι τ) (prepared : PreparedInitialFee ι)
    (generation basis : ℕ) : CycleOwner κ φ ι τ :=
  { o with
    stateGeneration := some basis
    pendingInitialFees := o.pendingInitialFees.insert prepared.channelId
      (.committing prepared.eventKey generation basis (o.initialDecision p prepared).staged) }

theorem handleCommitResult_cases (o : CycleOwner κ φ ι τ) (channelId eventKey : String)
    (generation : ℕ) (result : Except String GuardedCommitOutcome) :
    (o.handleCommitResult channelId eventKey generation result = o.conflicted ∧
      ∀ basis staged, o.pendingInitialFees.get? channelId ≠
        some (.committing eventKey generation basis staged)) ∨
    ∃ basis staged,
      o.pendingInitialFees.get? channelId = some (.committing eventKey generation basis staged) ∧
      o.handleCommitResult channelId eventKey generation result =
        (o.unparked channelId).settleCommit channelId basis staged result := by
  unfold handleCommitResult
  cases hentry : o.pendingInitialFees.get? channelId with
  | none => exact .inl ⟨rfl, fun _ _ h => by cases h⟩
  | some entry =>
    cases entry with
    | checkingIdempotency key awaited prepared => exact .inl ⟨rfl, fun _ _ h => by cases h⟩
    | committing key awaited basis staged =>
      dsimp only
      by_cases hid : key = eventKey ∧ awaited = generation
      · obtain ⟨rfl, rfl⟩ := hid
        rw [if_pos ⟨rfl, rfl⟩]
        exact .inr ⟨basis, staged, rfl, rfl⟩
      · rw [if_neg hid]
        refine .inl ⟨rfl, fun _ _ h => hid ?_⟩
        cases h
        exact ⟨rfl, rfl⟩

theorem unlaunched_commit {prepared : PreparedInitialFee ι} {basis : ℕ} {e : String} :
    (o.awaiting p prepared generation basis).handleCommitResult prepared.channelId prepared.eventKey
        generation (.error e) =
      ((o.awaiting p prepared generation basis).unparked prepared.channelId).failedPersistence := by
  obtain ⟨-, hne⟩ | ⟨basis', staged, hentry, heq⟩ := handleCommitResult_cases
    (o.awaiting p prepared generation basis) prepared.channelId prepared.eventKey generation
      (.error e)
  · exact absurd Dict.get_insert_self (hne basis (o.initialDecision p prepared).staged)
  · exact heq

/-- What a decision leaves: its dispatched commit, or nothing in flight. -/
theorem decideAndDispatch_cases (prepared : PreparedInitialFee ι) (generation : ℕ) {basis : ℕ}
    (hbasis : o.stateGeneration = some basis) :
    decideAndDispatchCommit K p r o prepared generation basis =
      (o.awaiting p prepared generation basis,
        [.dispatchCommit prepared.channelId prepared.eventKey generation
          (initialFeeCommit K prepared (o.initialDecision p prepared)) basis]) ∨
    decideAndDispatchCommit K p r o prepared generation basis =
      (((o.awaiting p prepared generation basis).unparked prepared.channelId).failedPersistence,
        []) := by
  have howner : { o with
      pendingInitialFees := o.pendingInitialFees.insert prepared.channelId
        (.committing prepared.eventKey generation basis (o.initialDecision p prepared).staged) } =
      o.awaiting p prepared generation basis := by
    unfold CycleOwner.awaiting
    rw [← hbasis]
  unfold decideAndDispatchCommit
  by_cases hgone : (!o.hasResultSink || !o.hasStore) = true
  · rw [if_pos hgone]
    exact .inr (congrArg (fun x => ((x.unparked prepared.channelId).failedPersistence, [])) howner)
  · rw [if_neg hgone]
    cases r.launchCommit with
    | ok u => exact .inl (congrArg (fun x => (x, _)) howner)
    | error e =>
      right
      exact congrArg (fun x => (x, [])) ((congrArg
        (fun x => CycleOwner.handleCommitResult x prepared.channelId prepared.eventKey generation
          (.error e)) howner).trans unlaunched_commit)

inductive IdempotencyStep (K : FeeKernel κ φ) (p : Pass κ φ ι) (o : CycleOwner κ φ ι τ)
    (channelId eventKey : String) (generation : ℕ) : Handled κ φ ι τ → Prop where
  | conflict : IdempotencyStep K p o channelId eventKey generation (o.conflicted, [])
  | settled (prepared : PreparedInitialFee ι)
      (hawaited : o.pendingInitialFees.get? channelId =
        some (.checkingIdempotency eventKey generation prepared))
      {h : Handled κ φ ι τ} (hn : Noted (o.unparked channelId) h) :
      IdempotencyStep K p o channelId eventKey generation h
  | dispatched (prepared : PreparedInitialFee ι) (basis : ℕ)
      (hawaited : o.pendingInitialFees.get? channelId =
        some (.checkingIdempotency eventKey generation prepared))
      (hbasis : ∀ g, o.stateGeneration = some g → basis = g) :
      IdempotencyStep K p o channelId eventKey generation
        ((o.unparked channelId).awaiting p prepared generation basis,
          [.dispatchCommit prepared.channelId prepared.eventKey generation
            (initialFeeCommit K prepared (o.initialDecision p prepared)) basis])
  | unlaunched (prepared : PreparedInitialFee ι) (basis : ℕ)
      (hawaited : o.pendingInitialFees.get? channelId =
        some (.checkingIdempotency eventKey generation prepared))
      (hbasis : ∀ g, o.stateGeneration = some g → basis = g) :
      IdempotencyStep K p o channelId eventKey generation
        ((((o.unparked channelId).awaiting p prepared generation basis).unparked
          prepared.channelId).failedPersistence, [])

theorem decided_step {prepared : PreparedInitialFee ι} {basis : ℕ}
    (hawaited : o.pendingInitialFees.get? channelId =
      some (.checkingIdempotency eventKey generation prepared))
    (hbasis : ∀ g, o.stateGeneration = some g → basis = g) :
    IdempotencyStep K p o channelId eventKey generation
      (decideAndDispatchCommit K p r { o.unparked channelId with stateGeneration := some basis }
        prepared generation basis) := by
  obtain heq | heq := decideAndDispatch_cases (K := K) (p := p) (r := r)
    (o := { o.unparked channelId with stateGeneration := some basis }) prepared generation rfl
  · rw [heq]
    exact .dispatched prepared basis hawaited hbasis
  · rw [heq]
    exact .unlaunched prepared basis hawaited hbasis

theorem handleIdempotencyResult_step (result : Except String (Bool × ℕ)) :
    IdempotencyStep K p o channelId eventKey generation
      (o.handleIdempotencyResult K p r channelId eventKey generation result) := by
  unfold handleIdempotencyResult
  cases hentry : o.pendingInitialFees.get? channelId with
  | none => exact .conflict
  | some entry =>
    cases entry with
    | committing key awaited basis staged => exact .conflict
    | checkingIdempotency key awaited prepared =>
      dsimp only
      by_cases hid : key = eventKey ∧ awaited = generation
      · obtain ⟨rfl, rfl⟩ := hid
        rw [if_pos ⟨rfl, rfl⟩]
        unfold settleIdempotency
        rcases result with e | ⟨found, storeGeneration⟩
        · exact .settled prepared hentry (Noted.of_noted (q := o.triggerQueue)
            (n := o.persistenceFailures + 1) dispatchA3Receipt_noted)
        cases found with
        | true => exact .settled prepared hentry dispatchA3Receipt_noted
        | false =>
          have hunparked : (o.unparked channelId).stateGeneration = o.stateGeneration := rfl
          rw [hunparked]
          cases hgeneration : o.stateGeneration with
          | some tracked =>
            have howner : o.unparked channelId =
                { o.unparked channelId with stateGeneration := some tracked } := by
              rw [← hgeneration]
              rfl
            dsimp only
            rw [howner]
            exact decided_step hentry fun g hg => Option.some.inj (hgeneration.symm.trans hg)
          | none =>
            refine decided_step hentry fun g hg => ?_
            rw [hgeneration] at hg
            cases hg
      · rw [if_neg hid]
        exact .conflict

def CycleOwner.checking (o : CycleOwner κ φ ι τ) (prepared : PreparedInitialFee ι) :
    CycleOwner κ φ ι τ :=
  { o with
    initialFeeDispatchSeq := o.initialFeeDispatchSeq + 1
    pendingInitialFees := o.pendingInitialFees.insert prepared.channelId
      (.checkingIdempotency prepared.eventKey (o.initialFeeDispatchSeq + 1) prepared) }

/-- What a new channel can do: leave receipts, have its check dispatched, or fail to. -/
inductive NewChannelStep (o : CycleOwner κ φ ι τ) (prepared : PreparedInitialFee ι) :
    Handled κ φ ι τ → Prop where
  | kept {h : Handled κ φ ι τ} (hn : Noted o h) : NewChannelStep o prepared h
  | dispatched (q : Queue) (hready : o.outOfCycleCommitRefusal = none)
      (hfree : o.pendingInitialFees.get? prepared.channelId = none) (hstore : o.hasStore = true)
      (hsink : o.hasResultSink = true) :
      NewChannelStep o prepared ((o.noted q o.persistenceFailures).checking prepared,
        [.dispatchCycleExists prepared.channelId prepared.eventKey (o.initialFeeDispatchSeq + 1)])
  | unlaunched (hready : o.outOfCycleCommitRefusal = none)
      (hfree : o.pendingInitialFees.get? prepared.channelId = none) {h : Handled κ φ ι τ}
      (hn : Noted ((o.checking prepared).unparked prepared.channelId) h) :
      NewChannelStep o prepared h

theorem dispatchIdempotencyCheck_step {q : Queue} {prepared : PreparedInitialFee ι}
    (hready : o.outOfCycleCommitRefusal = none)
    (hfree : o.pendingInitialFees.get? prepared.channelId = none) (hstore : o.hasStore = true)
    (hsink : o.hasResultSink = true) :
    NewChannelStep o prepared
      ((o.noted q o.persistenceFailures).dispatchIdempotencyCheck K p r prepared) := by
  unfold dispatchIdempotencyCheck
  cases r.launchCycleExists with
  | ok u => exact .dispatched q hready hfree hstore hsink
  | error e =>
    refine .unlaunched hready hfree ?_
    unfold handleIdempotencyResult
    simp only [Dict.get_insert_self, and_self, if_true]
    exact Noted.of_noted (q := q) (n := o.persistenceFailures + 1) dispatchA3Receipt_noted

theorem admitNewChannel_step {q : Queue} {prepared : PreparedInitialFee ι}
    {outcome : TriggerOutcome} :
    NewChannelStep o prepared
      ((o.noted q o.persistenceFailures).admitNewChannel K p r prepared outcome) := by
  have hkept : ∀ n trigger at_ coalesced detail context, NewChannelStep o prepared
      ((o.noted q n).dispatchA3Receipt r trigger at_ coalesced detail context) :=
    fun n _ _ _ _ _ => .kept (Noted.of_noted (q := q) (n := n) dispatchA3Receipt_noted)
  unfold admitNewChannel
  cases outcome with
  | dropped => exact hkept _ _ _ _ _ _
  | coalesced => exact hkept _ _ _ _ _ _
  | enqueued =>
    dsimp only
    have hrefusal : (o.noted q o.persistenceFailures).outOfCycleCommitRefusal =
        o.outOfCycleCommitRefusal := rfl
    rw [hrefusal]
    cases hready : o.outOfCycleCommitRefusal with
    | some bootstrap => exact hkept _ _ _ _ _ _
    | none =>
      dsimp only
      by_cases hcontains : o.pendingInitialFees.contains prepared.channelId = true
      · exact (if_pos (c := (o.noted q _).pendingInitialFees.contains _ = true) hcontains) ▸
          hkept _ _ _ _ _ _
      rw [if_neg (c := (o.noted q _).pendingInitialFees.contains _ = true) hcontains]
      by_cases hstore : (!o.hasStore) = true
      · rw [if_pos (c := (!(o.noted q _).hasStore) = true) hstore]
        exact hkept (o.persistenceFailures + 1) _ _ _ _ _
      rw [if_neg (c := (!(o.noted q _).hasStore) = true) hstore]
      by_cases hsink : (!o.hasResultSink) = true
      · rw [if_pos (c := (!(o.noted q _).hasResultSink) = true) hsink]
        exact hkept (o.persistenceFailures + 1) _ _ _ _ _
      rw [if_neg (c := (!(o.noted q _).hasResultSink) = true) hsink]
      have hfree : o.pendingInitialFees.get? prepared.channelId = none := by
        simpa [Dict.contains] using hcontains
      exact dispatchIdempotencyCheck_step hready hfree (by simpa using hstore)
        (by simpa using hsink)

theorem handleNewChannel_step (prepared : PreparedInitialFee ι) :
    NewChannelStep o prepared (o.handleNewChannel K p r prepared) := admitNewChannel_step

theorem handleNewChannelRefused_noted {peerId channelHint reason : String} {eventTs : ℤ} :
    Noted o (o.handleNewChannelRefused r peerId channelHint eventTs reason) :=
  Noted.of_noted (n := o.persistenceFailures) dispatchA3Receipt_noted

end NewChannel

section Cycle

variable {K : FeeKernel κ φ} {p : Pass κ φ ι} {r : StoreReplies} {o o' o'' : CycleOwner κ φ ι τ}
  {prepared : PreparedCycle ι}

structure SameSlots (o o' : CycleOwner κ φ ι τ) : Prop where
  pending : o'.pendingInitialFees = o.pendingInitialFees
  deferred : o'.deferredCycle = o.deferredCycle
  ack : o'.deferredCycleAck = o.deferredCycleAck
  lifecycle : o'.lifecycle = o.lifecycle
  store : o'.hasStore = o.hasStore
  sink : o'.hasResultSink = o.hasResultSink
  nudges : o'.lastFailureNudgeTs = o.lastFailureNudgeTs
  seq : o'.initialFeeDispatchSeq = o.initialFeeDispatchSeq

theorem SameSlots.refl : SameSlots o o := ⟨rfl, rfl, rfl, rfl, rfl, rfl, rfl, rfl⟩

theorem SameSlots.trans (h : SameSlots o o') (k : SameSlots o' o'') : SameSlots o o'' where
  pending := k.pending.trans h.pending
  deferred := k.deferred.trans h.deferred
  ack := k.ack.trans h.ack
  lifecycle := k.lifecycle.trans h.lifecycle
  store := k.store.trans h.store
  sink := k.sink.trans h.sink
  nudges := k.nudges.trans h.nudges
  seq := k.seq.trans h.seq

inductive Written (s : ControllerState κ φ) : ControllerState κ φ → Prop where
  | same : Written s s
  | write {t : ControllerState κ φ} (w : StateWrites κ φ) (h : Written s t) : Written s (t.write w)

/-- The owner after its policy watcher: it noted times, woke channels and left receipts. -/
structure Watched (o : CycleOwner κ φ ι τ) (h : Handled κ φ ι τ) : Prop where
  owner : ∃ q noted state, h.1 =
    { o with triggerQueue := q, lastPolicyUpdatedAt := noted, state := state } ∧
      Written o.state state
  audit : Audit h.2

theorem detectPolicyChange_watched (o : CycleOwner κ φ ι τ) (evidence : Evidence)
    (peerId : String) :
    Watched o (detectPolicyChange p evidence o peerId) := by
  unfold detectPolicyChange
  cases evidence.policyUpdatedAt peerId with
  | none => exact ⟨⟨_, _, _, rfl, .same⟩, audit_nil⟩
  | some updatedAt =>
    dsimp only
    cases o.lastPolicyUpdatedAt.get? peerId with
    | none => exact ⟨⟨_, _, _, rfl, .same⟩, audit_nil⟩
    | some prev =>
      dsimp only
      by_cases hadvanced : prev < updatedAt
      · rw [if_pos hadvanced]
        obtain ⟨q, writes, howner, haudit⟩ := handleTrigger_spec
          { o with lastPolicyUpdatedAt := o.lastPolicyUpdatedAt.insert peerId updatedAt }
          (.policyChanged peerId) p.now (p.handlePolicyChange o.state peerId).1
          (wokenDetail (p.handlePolicyChange o.state peerId).2)
        exact ⟨⟨q, _, _, howner, .write writes .same⟩, haudit⟩
      · rw [if_neg hadvanced]
        exact ⟨⟨_, _, _, rfl, .same⟩, audit_nil⟩

theorem Written.trans {s t u : ControllerState κ φ} (h : Written s t) (k : Written t u) :
    Written s u := by
  induction k with
  | same => exact h
  | write w _ ih => exact .write w ih

theorem Audit.append {es fs : List (OwnerEffect ι τ)} (h : Audit es) (k : Audit fs) :
    Audit (es ++ fs) := by
  intro e he
  rcases List.mem_append.mp he with he | he
  · exact h e he
  · exact k e he

theorem detectPolicyChanges_watched (o : CycleOwner κ φ ι τ) (evidence : Evidence)
    (seen peers : List String) :
    Watched o (detectPolicyChanges p evidence seen peers o) := by
  induction peers generalizing seen o with
  | nil => exact ⟨⟨_, _, _, rfl, .same⟩, audit_nil⟩
  | cons peerId peers ih =>
    unfold detectPolicyChanges
    by_cases hskip : peerId = "" ∨ peerId ∈ seen
    · rw [if_pos hskip]
      exact ih _ _
    · rw [if_neg hskip]
      obtain ⟨⟨q, noted, state, howner, hwritten⟩, haudit⟩ :=
        detectPolicyChange_watched (p := p) o evidence peerId
      obtain ⟨⟨q', noted', state', howner', hwritten'⟩, haudit'⟩ :=
        ih (detectPolicyChange p evidence o peerId).1 (peerId :: seen)
      have hstate : (detectPolicyChange p evidence o peerId).1.state = state := by rw [howner]
      rw [hstate] at hwritten'
      exact ⟨⟨q', noted', state', howner'.trans (by rw [howner]), hwritten.trans hwritten'⟩,
        haudit.append haudit'⟩

theorem Watched.slots {h : Handled κ φ ι τ} (hw : Watched o h) : SameSlots o h.1 := by
  obtain ⟨⟨q, noted, state, howner, -⟩, -⟩ := hw
  rw [howner]
  exact ⟨rfl, rfl, rfl, rfl, rfl, rfl, rfl, rfl⟩

theorem markRestart_slots {generation : ℕ} : SameSlots o (o.markRestart r generation).1.1 := by
  unfold markRestart
  cases r.recordRestartMarker <;> exact ⟨rfl, rfl, rfl, rfl, rfl, rfl, rfl, rfl⟩

theorem hydrateStored_slots {stored : FeeStateSnapshot} :
    SameSlots o (o.hydrateStored K r stored).1.1 := by
  unfold hydrateStored
  split
  · split
    · exact .refl
    · split
      · exact ⟨rfl, rfl, rfl, rfl, rfl, rfl, rfl, rfl⟩
      · exact .refl
  · exact .refl
  · exact .refl

theorem hydrateVirgin_slots {stored : FeeStateSnapshot} :
    SameSlots o (o.hydrateVirgin p stored).1.1 := by
  unfold hydrateVirgin
  split
  · exact .refl
  · split <;> exact ⟨rfl, rfl, rfl, rfl, rfl, rfl, rfl, rfl⟩

theorem seedOnceHydrate_slots : SameSlots o (o.seedOnceHydrate K p r).1.1 := by
  unfold seedOnceHydrate
  split
  · exact .refl
  split
  · exact .refl
  cases r.loadLatestState with
  | error e => exact .refl
  | ok stored =>
    dsimp only
    have hsourced : SameSlots o (if 0 < stored.generation then o.hydrateStored K r stored
        else o.hydrateVirgin p stored).1.1 := by
      by_cases hpos : 0 < stored.generation
      · rw [if_pos hpos]
        exact hydrateStored_slots
      · rw [if_neg hpos]
        exact hydrateVirgin_slots
    split
    · exact hsourced
    · exact hsourced.trans markRestart_slots

theorem hydrate_slots : SameSlots o (o.hydrate K p r).1.1 := by
  unfold hydrate
  split
  · exact ⟨rfl, rfl, rfl, rfl, rfl, rfl, rfl, rfl⟩
  · split
    · exact .refl
    · have hseeded : SameSlots o (o.seedOnceHydrate K p r).1.1 := seedOnceHydrate_slots
      dsimp only
      split
      · exact hseeded
      · exact hseeded.trans ⟨rfl, rfl, rfl, rfl, rfl, rfl, rfl, rfl⟩

theorem scheduleRetentionSweep_spec (o : CycleOwner κ φ ι τ) (now : ℤ) :
    ∃ retention, (o.scheduleRetentionSweep r now).1 = { o with retention := retention } ∧
      Audit (o.scheduleRetentionSweep r now).2 := by
  unfold scheduleRetentionSweep
  split
  · exact ⟨_, rfl, audit_nil⟩
  · cases r.launchRetentionSweep with
    | ok u =>
      refine ⟨_, rfl, ?_⟩
      intro e he
      rw [List.mem_singleton.mp he]
      rfl
    | error e => exact ⟨_, rfl, audit_nil⟩

theorem decideAndCommit_slots : SameSlots o (o.decideAndCommit K p r prepared).owner := by
  unfold decideAndCommit
  dsimp only
  split
  · exact ⟨rfl, rfl, rfl, rfl, rfl, rfl, rfl, rfl⟩
  · split
    · exact ⟨rfl, rfl, rfl, rfl, rfl, rfl, rfl, rfl⟩
    · split
      · obtain ⟨retention, howner, -⟩ := scheduleRetentionSweep_spec _ _
        rw [howner]
        exact ⟨rfl, rfl, rfl, rfl, rfl, rfl, rfl, rfl⟩
      · exact ⟨rfl, rfl, rfl, rfl, rfl, rfl, rfl, rfl⟩

theorem runCycleBody_slots : SameSlots o (o.runCycleBody K p r prepared).owner := by
  unfold runCycleBody
  cases o.cycleEvidence p r prepared with
  | error outcome => exact .refl
  | ok evidence =>
    dsimp only
    have hwatched := (detectPolicyChanges_watched (p := p) o evidence [] evidence.peers).slots
    have hhydrated := hwatched.trans (hydrate_slots (K := K) (p := p) (r := r))
    split
    · exact hhydrated
    · exact hhydrated.trans decideAndCommit_slots

theorem runCycle_slots (o : CycleOwner κ φ ι τ) (prepared : PreparedCycle ι) :
    SameSlots o (o.runCycle K p r prepared).2.1 := by
  have hdrained : SameSlots o { o with
      triggerQueue := (o.triggerQueue.offer .fixedInterval p.now).2.drainAll
      appliedFailureNudgesPending := [] } := ⟨rfl, rfl, rfl, rfl, rfl, rfl, rfl, rfl⟩
  exact hdrained.trans (runCycleBody_slots.trans ⟨rfl, rfl, rfl, rfl, rfl, rfl, rfl, rfl⟩)

end Cycle

end FeeOwner
