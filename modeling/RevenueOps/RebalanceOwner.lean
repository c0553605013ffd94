import RevenueOps.InteractiveProgram
import RevenueOps.RebalanceExecution
import RevenueOps.RebalanceFacade

/-! The owner of rebalance submissions: one thread that takes a manual submission, a cycle or the
reconciliation after a restart at a time. The store, the engine, the node and the clock answer its
calls. -/
namespace RebalanceOwner

open FallibleState InteractiveProgram JsonValue RustNumber
open RouteExecutor (ExecutionResult)
open RebalanceEngine (EngineKwargs RebalanceCandidate)
open RebalanceFacade (engineKwargs)
open RebalanceExecution RebalanceRail

structure ManualRebalanceParams where
  fromChannel : String
  toChannel : String
  amountSats : ℤ
  maxFeeSats : Option ℤ
  force : Bool

structure OwnerConfig where
  engineAssembled : Bool
  dailyBudgetSats : ℤ
  budgetWindowHours : ℤ
  rebalanceMaxAmount : ℤ
  pairCooldownSeconds : ℤ

/-- What the thread keeps in memory. The last cooldown of a pair comes first. -/
structure OwnerState where
  suspended : Bool
  cooldowns : List ((String × String) × ℤ)
  submissions : ℕ

def OwnerState.fresh : OwnerState := ⟨false, [], 0⟩

inductive RebalanceRefusal where
  | suspended
  | engineNotAssembled
  | hardCapExceeded (requestedSats maxAmountSats : ℤ)
  | cooldownActive (remainingSeconds : ℤ)
  | budgetExhausted (reservedSats requestedSats budgetSats : ℤ)
  | evidenceUnavailable (detail : String)
  | storeAdmissionRefused (detail : String)
  | storeIntentOutcomeUnknown (detail : String)
  | storeFailed (detail : String)
  | settlePersistenceUnknown (requestId detail : String)

structure ManualOutcome where
  requestId : String
  outcome : RebalanceSubmitOutcome

structure CycleSummary where
  executions : ℕ
  recorded : ℕ
  skips : ℕ

structure ReconcileSummary where
  settledSuccess : ℕ
  settledFailed : ℕ
  quarantined : ℕ

section Calls

inductive StoreAdmissionRefused where
  | queueFull
  | actorGone

def StoreAdmissionRefused.text : StoreAdmissionRefused → String
  | queueFull => "owner store queue at capacity; nothing was enqueued"
  | actorGone => "observer store actor gone; nothing was enqueued"

inductive IntentReceipt where
  | refused (reason : StoreAdmissionRefused)
  | replied (result : Except String Unit)
  | outcomeUnknown

/-- An execution of a cycle, with the hash of the last payment that went out for it. -/
structure CycleExecution where
  result : ExecutionResult
  paid : Option String

structure CycleResult where
  executions : List CycleExecution
  skips : ℕ

/-- The calls of the owner. The hash beside an intent and the request id of an execution are for
the history of payments: no callee gets to see them. -/
inductive Op where
  | clock
  | getFunds
  | getPeerChannels
  | reservedSats (since : ℤ)
  | insertIntent (intent : RebalanceAttemptIntent) (paid : Option String)
  | settle (s : RebalanceSettle)
  | unresolved
  | execute (requestId : String) (candidate : RebalanceCandidate) (rebalanceId : ℤ)
      (kw : EngineKwargs)
  | engineCycle
  | listsendpays (paymentHash : String)

abbrev Reply : Op → Type
  | .clock => ℤ
  | .getFunds => Except String Unit
  | .getPeerChannels => Except String Unit
  | .reservedSats _ => Except String ℤ
  | .insertIntent _ _ => IntentReceipt
  | .settle _ => Except String Unit
  | .unresolved => Except String (List AttemptRecord)
  | .execute .. => ExecutionResult
  | .engineCycle => CycleResult
  | .listsendpays _ => Except String Json

abbrev Owner (α : Type) := Prog Op Reply α

def clock : Owner ℤ := .perform Op.clock
def getFunds : Owner (Except String Unit) := .perform Op.getFunds
def getPeerChannels : Owner (Except String Unit) := .perform Op.getPeerChannels
def reservedSats (since : ℤ) : Owner (Except String ℤ) := .perform (Op.reservedSats since)
def insertIntent (intent : RebalanceAttemptIntent) (paid : Option String) : Owner IntentReceipt :=
  .perform (Op.insertIntent intent paid)
def settle (s : RebalanceSettle) : Owner (Except String Unit) := .perform (Op.settle s)
def unresolved : Owner (Except String (List AttemptRecord)) := .perform Op.unresolved
def execute (requestId : String) (candidate : RebalanceCandidate) (rebalanceId : ℤ)
    (kw : EngineKwargs) : Owner ExecutionResult :=
  .perform (Op.execute requestId candidate rebalanceId kw)
def engineCycle : Owner CycleResult := .perform Op.engineCycle
def listsendpays (paymentHash : String) : Owner (Except String Json) :=
  .perform (Op.listsendpays paymentHash)

/-- What a message of the thread ends in: the memory that it leaves, and what it replies. -/
abbrev Told (α : Type) := OwnerState × Outcome RebalanceRefusal α

def check {α β : Type} (o : OwnerState) (r : Outcome RebalanceRefusal α) (k : α → Owner (Told β)) :
    Owner (Told β) :=
  match r with
  | .ok a => k a
  | .err e => pure (o, .err e)
  | .panic => pure (o, .panic)

end Calls

section Gates

variable (config : OwnerConfig) (o : OwnerState) (params : ManualRebalanceParams) (now : ℤ)

def pairOf : String × String := (params.fromChannel, params.toChannel)

def OverCap : Prop := 0 < config.rebalanceMaxAmount ∧ config.rebalanceMaxAmount < params.amountSats

instance : Decidable (OverCap config params) := by
  unfold OverCap
  infer_instance

def cooldownGate : Outcome RebalanceRefusal Unit :=
  match o.cooldowns.lookup (pairOf params) with
  | none => pure ()
  | some last => do
    let elapsed ← .checked (subI64 now last)
    if elapsed < config.pairCooldownSeconds then do
      let remaining ← .checked (subI64 config.pairCooldownSeconds elapsed)
      .err (.cooldownActive remaining)
    else pure ()

def windowStart : Outcome RebalanceRefusal ℤ := do
  let window ← .checked (mulI64 (max config.budgetWindowHours 1) 3600)
  .checked (subI64 now window)

def budgetGate (reserved : Except String ℤ) : Outcome RebalanceRefusal Unit :=
  match reserved with
  | .error e => .err (.storeFailed e)
  | .ok reserved => do
    let total ← .checked (addI64 reserved params.amountSats)
    if config.dailyBudgetSats < total then
      .err (.budgetExhausted reserved params.amountSats config.dailyBudgetSats)
    else pure ()

def softGates : Owner (Outcome RebalanceRefusal Unit) :=
  if params.force then pure (.ok ())
  else
    match cooldownGate config o params now >>= fun _ => windowStart config now with
    | .err e => pure (.err e)
    | .panic => pure .panic
    | .ok since => do
      let reserved ← reservedSats since
      pure (budgetGate config params reserved)

def evidenceOf (source : String) (reply : Except String Unit) : Outcome RebalanceRefusal Unit :=
  match reply with
  | .error e => .err (.evidenceUnavailable (source ++ ": " ++ e))
  | .ok () => pure ()

def evidence : Owner (Outcome RebalanceRefusal Unit) := do
  let funds ← getFunds
  match evidenceOf "listfunds" funds with
  | .err e => pure (.err e)
  | .panic => pure .panic
  | .ok () => do
    let channels ← getPeerChannels
    pure (evidenceOf "listpeerchannels" channels)

end Gates

section Manual

/-- The candidate of a manual submission; its msat amounts are computed and not read. -/
def manualCandidate (params : ManualRebalanceParams) : Option RebalanceCandidate := do
  let maxFee := params.maxFeeSats.getD 0
  let _ ← mulI64 params.amountSats 1000
  let _ ← mulI64 maxFee 1000
  let maxFeePpm ← if 0 < params.amountSats then
      (mulI64 maxFee 1000000).map fun scaled => scaled.tdiv params.amountSats
    else some 0
  pure
    { sourceCandidates := [params.fromChannel]
      toChannel := params.toChannel
      primarySourcePeerId := ""
      toPeerId := ""
      amountSats := params.amountSats
      maxBudgetSats := maxFee
      maxFeePpm := maxFeePpm
      expectedProfitSats := 0 }

def manualRequestId (params : ManualRebalanceParams) (now : ℤ) (submissions : ℕ) : String :=
  s!"manual-{now}-{submissions}-{params.fromChannel}-{params.toChannel}"

def manualIntent (params : ManualRebalanceParams) (now : ℤ) (requestId : String) :
    RebalanceAttemptIntent :=
  { requestId := requestId
    sourceChannel := params.fromChannel
    destChannel := params.toChannel
    amountSats := params.amountSats
    maxFeeSats := params.maxFeeSats.getD 0
    trigger := if params.force then .manualForce else .manual
    submittedAt := now }

def intentOutcomeUnknown : String :=
  "the intent write was admitted but produced no reply within the store budget; the submission " ++
    "does NOT proceed and restart reconciliation owns any orphan intent"

/-- Classify and settle, once. A settlement that cannot be recorded suspends the owner. -/
def settleManual (o : OwnerState) (requestId : String) (result : ExecutionResult) :
    Owner (Told ManualOutcome) := do
  let outcome := classifyExecution result
  let resolvedAt ← clock
  let settled ← settle (settlementFor outcome requestId resolvedAt)
  match settled with
  | .error e => pure ({ o with suspended := true }, .err (.settlePersistenceUnknown requestId e))
  | .ok () => pure (o, .ok ⟨requestId, outcome⟩)

def submit (o : OwnerState) (params : ManualRebalanceParams) (now : ℤ) :
    Owner (Told ManualOutcome) := do
  let o := { o with submissions := o.submissions + 1 }
  let requestId := manualRequestId params now o.submissions
  let receipt ← insertIntent (manualIntent params now requestId) none
  match receipt with
  | .refused reason => pure (o, .err (.storeAdmissionRefused reason.text))
  | .outcomeUnknown => pure (o, .err (.storeIntentOutcomeUnknown intentOutcomeUnknown))
  | .replied (.error e) => pure (o, .err (.storeFailed e))
  | .replied (.ok ()) =>
    let o := { o with cooldowns := (pairOf params, now) :: o.cooldowns }
    check o (.checked (manualCandidate params)) fun candidate => do
      let result ← execute requestId candidate (-1) (engineKwargs .manual)
      settleManual o requestId result

/-- OwnerState::manual. -/
def manual (config : OwnerConfig) (o : OwnerState) (params : ManualRebalanceParams) :
    Owner (Told ManualOutcome) :=
  if o.suspended then pure (o, .err .suspended)
  else if !config.engineAssembled then pure (o, .err .engineNotAssembled)
  else do
    let now ← clock
    if OverCap config params then
      pure (o, .err (.hardCapExceeded params.amountSats config.rebalanceMaxAmount))
    else do
      let gates ← softGates config o params now
      check o gates fun _ => do
        let fresh ← evidence
        check o fresh fun _ => submit o params now

end Manual

section Cycle

def cycleIntent [SerdeJson] (execution : ExecutionResult) (now : ℤ) (requestId : String) :
    RebalanceAttemptIntent :=
  { requestId := requestId
    sourceChannel := ((execution.failureData.get "route_summary").map SerdeJson.toString).getD ""
    destChannel := ""
    amountSats := execution.amountSats
    maxFeeSats := 0
    trigger := .cycle
    submittedAt := now }

def IntentReceipt.recorded : IntentReceipt → ℕ
  | replied (.ok ()) => 1
  | _ => 0

/-- Each execution gets its attempt and its end after the fact. -/
def recordExecutions [SerdeJson] (o : OwnerState) (cycle : CycleResult) :
    List CycleExecution → ℕ → ℕ → Owner (Told CycleSummary)
  | [], _, recorded => pure (o, .ok ⟨cycle.executions.length, recorded, cycle.skips⟩)
  | execution :: executions, index, recorded => do
    let now ← clock
    let requestId := s!"cycle-{now}-{index}"
    let receipt ← insertIntent (cycleIntent execution.result now requestId) execution.paid
    let settled ←
      settle (settlementFor (classifyExecution execution.result) requestId now)
    match settled with
    | .error e => pure ({ o with suspended := true }, .err (.settlePersistenceUnknown requestId e))
    | .ok () => recordExecutions o cycle executions (index + 1) (recorded + receipt.recorded)

/-- OwnerState::run_cycle. -/
def runCycle [SerdeJson] (config : OwnerConfig) (o : OwnerState) : Owner (Told CycleSummary) :=
  if o.suspended then pure (o, .err .suspended)
  else if !config.engineAssembled then pure (o, .err .engineNotAssembled)
  else do
    let cycle ← engineCycle
    recordExecutions o cycle cycle.executions 0 0

end Cycle

section Reconciliation

/-- Rust's Debug text of a list of strings. -/
class DebugText where
  strings : List String → String

open RebalanceEngine (member items status)

def statusesOf (response : Json) : List String := (items (member response "payments")).map status

structure Reconciled where
  outcome : AttemptOutcome
  detail : String
  reservationStatus : ReservationStatus
  fee : Option ℤ

def noHash : Reconciled :=
  ⟨.outcomeUnknown, "no payment hash recorded; nothing to look up", .quarantined, none⟩

/-- The fee of the completed payment, where both amounts are there. -/
def reconciledFee (response : Json) : Outcome RebalanceRefusal (Option ℤ) :=
  match (items (member response "payments")).find? fun p =>
      (member p "status").asStr = some "complete" with
  | none => pure none
  | some p =>
    match (member p "amount_sent_msat").asI64, (member p "amount_msat").asI64 with
    | some sent, some amount => do
      let difference ← .checked (subI64 sent amount)
      pure (some ((max difference 0).tdiv 1000))
    | _, _ => pure none

def Completed (response : Json) : Prop := "complete" ∈ statusesOf response

def AllFailed (response : Json) : Prop :=
  statusesOf response ≠ [] ∧ ∀ s ∈ statusesOf response, s = "failed"

instance (response : Json) : Decidable (Completed response) := by
  unfold Completed
  infer_instance

instance (response : Json) : Decidable (AllFailed response) := by
  unfold AllFailed
  infer_instance

def reconciledOf [DebugText] (reply : Except String Json) : Outcome RebalanceRefusal Reconciled :=
  match reply with
  | .error e =>
    pure ⟨.outcomeUnknown, "reconciliation lookup failed: " ++ e, .quarantined, none⟩
  | .ok response =>
    if Completed response then do
      let fee ← reconciledFee response
      pure ⟨.success, "reconciled complete on restart", .settled, fee⟩
    else if AllFailed response then
      pure ⟨.rejected, "reconciled failed on restart", .released, none⟩
    else
      pure ⟨.outcomeUnknown,
        "reconciled non-terminal on restart: " ++ DebugText.strings (statusesOf response),
        .quarantined, none⟩

def lookUp [DebugText] (attempt : AttemptRecord) : Owner (Outcome RebalanceRefusal Reconciled) :=
  match attempt.paymentHash with
  | none => pure (.ok noHash)
  | some hash => do
    let reply ← listsendpays hash
    pure (reconciledOf reply)

def Reconciled.settle (r : Reconciled) (attempt : AttemptRecord) (now : ℤ) : RebalanceSettle :=
  { requestId := attempt.requestId
    outcome := r.outcome
    outcomeDetail := some r.detail
    feePaidSats := r.fee
    paymentHash := attempt.paymentHash
    reservationStatus := r.reservationStatus
    resolvedAt := now }

def ReconcileSummary.count (summary : ReconcileSummary) : ReservationStatus → ReconcileSummary
  | .settled => { summary with settledSuccess := summary.settledSuccess + 1 }
  | .released => { summary with settledFailed := summary.settledFailed + 1 }
  | _ => { summary with quarantined := summary.quarantined + 1 }

def reconcileAttempts [DebugText] (o : OwnerState) :
    List AttemptRecord → ReconcileSummary → Owner (Told ReconcileSummary)
  | [], summary => pure (o, .ok summary)
  | attempt :: attempts, summary => do
    let now ← clock
    let reconciled ← lookUp attempt
    check o reconciled fun reconciled => do
      let settled ← settle (reconciled.settle attempt now)
      match settled with
      | .error e => pure (o, .err (.storeFailed e))
      | .ok () => reconcileAttempts o attempts (summary.count reconciled.reservationStatus)

/-- OwnerState::reconcile_on_start. -/
def reconcileOnStart [DebugText] (o : OwnerState) : Owner (Told ReconcileSummary) := do
  let rows ← unresolved
  match rows with
  | .error e => pure (o, .err (.storeFailed e))
  | .ok attempts => reconcileAttempts o attempts ⟨0, 0, 0⟩

end Reconciliation

end RebalanceOwner
