import RevenueOps.FeeRunway
import RevenueOps.InteractiveProgram
import RevenueOps.JsonValue

/-! The guarded fee broadcaster: what authorizes a batch, and how one batch is sent.
The store is a single actor behind a queue; a command whose caller stopped waiting may still run. -/
namespace FeeBroadcaster

open FallibleState SqlTransaction FeeRunway InteractiveProgram JsonValue

structure SetChannelRequest where
  id : String
  feebase : ℕ
  feeppm : ℕ
  htlcmin : Option ℕ
  htlcmax : Option ℕ
  deriving DecidableEq

/-- An absent limit is left out, never null. -/
def SetChannelRequest.toParams (r : SetChannelRequest) : Json :=
  .obj ([("feebase", .int r.feebase), ("feeppm", .int r.feeppm)] ++
    (r.htlcmax.map fun v => ("htlcmax", Json.int v)).toList ++
    (r.htlcmin.map fun v => ("htlcmin", Json.int v)).toList ++ [("id", .str r.id)])

structure PersistedFeeRequest where
  cycleId : Option String
  channelId : String
  requestId : String
  params : SetChannelRequest
  deriving DecidableEq

def PersistedFeeRequest.toParams (r : PersistedFeeRequest) : Json := r.params.toParams

inductive PythonAuthorityDenyReason where
  | transport (detail : String)
  | timeout (seconds : ℕ)
  | methodNotFound
  | malformedResponse (detail : String)
  | missingField (field : String)
  | wrongFieldType (field : String)
  | negativeField (field : String)
  | stillEnabled
  | staleObservation (ageSeconds maxAgeSeconds : ℤ)
  | unstableEpoch (first second : ℕ × ℤ)
  | nonAdvancingObservation (firstObservedAt secondObservedAt : ℤ)
  | staleOpenBracket (ageSeconds maxSeconds : ℤ)

inductive LiveBatchDenyReason where
  | quarantineCheckFailed (detail : String)
  | quarantineActive (reason : String) (enteredAt : ℤ)
  | stateGenerationCheckFailed (detail : String)
  | stateGenerationStale (authorizedAgainst current : ℕ)
  | pythonAuthority (reason : PythonAuthorityDenyReason)
  | governorDenied (reasonCode : String)
  | ledgerReservationMissing

/-- Instants are in nanoseconds of the monotonic clock. -/
structure LiveBatchAuthorization where
  candidateSha256 : String
  stateGeneration : ℕ
  pythonAuthorityGeneration : ℕ
  governorReasonCode : String
  ledgerReservationId : String
  mintedAt : ℕ

structure BatchRequestOutcome where
  requestId : String
  channelId : String
  response : Json

abbrev BatchReceipt := List BatchRequestOutcome

inductive BroadcastError where
  | quarantined
  | poisoned
  | rejected (requestId detail : String)
  | cleanFailure (requestId detail : String)
  | ambiguous (requestId detail : String)
  | authorizationStale (ageSeconds maxSeconds : ℕ)
  | persistence (detail : String)
  | resultPersistenceUnknown (requestId rpcOutcome detail : String)
  deriving DecidableEq

section Store

inductive StoreCommand where
  | activeExecutionQuarantine
  | currentStateGeneration
  | insertBroadcastAttempt (intent : BroadcastAttemptIntent)
  | recordBroadcastAttemptResult (id : ℕ) (outcome : BroadcastAttemptOutcome)
      (outcomeDetail : Option String) (completedAt : ℤ)
  | insertExecutionQuarantine (entry : QuarantineEntry)
  | reconcileQuarantineOnRestart (now : ℤ)

abbrev StoreCommand.Result : StoreCommand → Type
  | activeExecutionQuarantine => Option QuarantineRow
  | recordBroadcastAttemptResult _ _ _ _ => Unit
  | _ => ℕ

def StoreCommand.run : (c : StoreCommand) → Runway c.Result
  | activeExecutionQuarantine => activeQuarantine
  | currentStateGeneration => FeeRunway.currentStateGeneration
  | insertBroadcastAttempt intent => FeeRunway.insertBroadcastAttempt intent
  | recordBroadcastAttemptResult id outcome outcomeDetail completedAt =>
    FeeRunway.recordBroadcastAttemptResult id outcome outcomeDetail completedAt
  | insertExecutionQuarantine entry => insertQuarantine entry
  | reconcileQuarantineOnRestart now => FeeRunway.reconcileQuarantineOnRestart now

inductive StoreError where
  | runway (e : RunwayError)
  | actorGone
  | replyDropped
  deriving DecidableEq, Repr

inductive StoreAdmissionRefused where
  | queueFull
  | actorGone
  deriving DecidableEq, Repr

def StoreAdmissionRefused.text : StoreAdmissionRefused → String
  | queueFull => "owner queue at capacity; nothing was enqueued"
  | actorGone => "owner actor gone; nothing was enqueued"

inductive StoreReceiptWait (α : Type) where
  | replied (result : Except StoreError α)
  | outcomeUnknown

/-- The text that anyhow gives a store error. -/
class StoreErrorText where
  text : StoreError → String

end Store

section Calls

inductive ConnectReply where
  | timedOut
  | failed (text : String)
  | connected

/-- What call_raw returned, or that its time ran out. -/
inductive CallReply where
  | timedOut
  | result (value : Json)
  | error (code : Option ℤ) (text : String)

/-- One step of the broadcaster: a flag, a clock, the store, or the socket. The write of a request
and the wait for its answer are two steps. -/
inductive Op where
  | loadPoisoned
  | storePoisoned
  | instantNow
  | nowUnix
  | store (c : StoreCommand)
  | tryStore (c : StoreCommand)
  | connect
  | setchannel (params : Json)
  | response (handle : ℕ)
  | closeBracket (now : ℤ)

abbrev Reply : Op → Type
  | .loadPoisoned => Bool
  | .storePoisoned => Unit
  | .instantNow => ℕ
  | .nowUnix => ℤ
  | .store c => StoreReceiptWait c.Result
  | .tryStore c => Except StoreAdmissionRefused (StoreReceiptWait c.Result)
  | .connect => ConnectReply
  | .setchannel _ => ℕ
  | .response _ => CallReply
  | .closeBracket _ => Except PythonAuthorityDenyReason ℕ

abbrev Broadcast (α : Type) := Prog Op Reply α

def loadPoisoned : Broadcast Bool := .perform Op.loadPoisoned
def storePoisoned : Broadcast Unit := .perform Op.storePoisoned
def instantNow : Broadcast ℕ := .perform Op.instantNow
def nowUnix : Broadcast ℤ := .perform Op.nowUnix
def connect : Broadcast ConnectReply := .perform Op.connect
def setchannel (params : Json) : Broadcast ℕ := .perform (Op.setchannel params)
def response (handle : ℕ) : Broadcast CallReply := .perform (Op.response handle)

def storeCall (c : StoreCommand) : Broadcast (StoreReceiptWait c.Result) := .perform (Op.store c)

def tryStoreCall (c : StoreCommand) :
    Broadcast (Except StoreAdmissionRefused (StoreReceiptWait c.Result)) := .perform (Op.tryStore c)

def closeBracket (now : ℤ) : Broadcast (Except PythonAuthorityDenyReason ℕ) :=
  .perform (Op.closeBracket now)

end Calls

inductive SendOutcome where
  | success (response : Json)
  | rejected (detail : String)
  | cleanFailure (detail : String)
  | ambiguous (detail : String)

/-- Only an error object with a code is an answer of lightningd. -/
def CallReply.classify : CallReply → SendOutcome
  | timedOut => .ambiguous "no response within the timeout budget after the request was sent"
  | result value => .success value
  | error (some _) text => .rejected text
  | error none text => .ambiguous text

def authorizationDispatchFreshness : ℕ := 30
def nanosPerSecond : ℕ := 1000000000
def authorizeStoreBudget : ℕ := 7
def storeBudgetFloor : ℕ := 7
def setchannelMethod : String := "setchannel"

section Program

variable [SerdeJson] [StoreErrorText]

/-- The reply within the budget, and an expiry as a denial. -/
def budgetedReply {α : Type} (budgetSeconds : ℕ) (what : String) :
    StoreReceiptWait α → Except String α
  | .replied (.ok value) => .ok value
  | .replied (.error e) => .error (StoreErrorText.text e)
  | .outcomeUnknown => .error (what ++ " exceeded its " ++ toString budgetSeconds ++
      "s Rust-owned-store budget: the single-owner actor did not answer, so this call fails " ++
      "closed rather than hanging its caller")

def budgeted (budgetSeconds : ℕ) (what : String) (c : StoreCommand) :
    Broadcast (Except String c.Result) := do
  let wait ← storeCall c
  pure (budgetedReply budgetSeconds what wait)

/-- LiveBatchAuthorization::authorize. -/
def authorize (candidateSha256 : String) (candidateStateGeneration : ℕ) (now : ℤ)
    (governorAuthorized : Bool) (governorReasonCode ledgerReservationId : String) :
    Broadcast (Except LiveBatchDenyReason LiveBatchAuthorization) := do
  match ← budgeted authorizeStoreBudget "the active-quarantine read" .activeExecutionQuarantine with
  | .error detail => pure (.error (.quarantineCheckFailed detail))
  | .ok (some q) => pure (.error (.quarantineActive q.reason q.enteredAt))
  | .ok none => do
    match ← budgeted authorizeStoreBudget "the state-generation read" .currentStateGeneration with
    | .error detail => pure (.error (.stateGenerationCheckFailed detail))
    | .ok currentStateGeneration =>
      if candidateStateGeneration ≠ currentStateGeneration then
        pure (.error (.stateGenerationStale candidateStateGeneration currentStateGeneration)) else
      if !governorAuthorized then pure (.error (.governorDenied governorReasonCode)) else
      if ledgerReservationId = "" then pure (.error .ledgerReservationMissing) else do
      match ← closeBracket now with
      | .error reason => pure (.error (.pythonAuthority reason))
      | .ok secondGeneration => do
        let mintedAt ← instantNow
        pure (.ok ⟨candidateSha256, currentStateGeneration, secondGeneration, governorReasonCode,
          ledgerReservationId, mintedAt⟩)

structure Broadcaster where
  timeoutSeconds : ℕ

def Broadcaster.storeBudget (b : Broadcaster) : ℕ := max b.timeoutSeconds storeBudgetFloor

variable (b : Broadcaster)

def recordResult (attemptId : ℕ) (outcome : BroadcastAttemptOutcome) (detail : Option String) :
    Broadcast (Except String Unit) := do
  let now ← nowUnix
  budgeted b.storeBudget "the broadcast-attempt result write"
    (.recordBroadcastAttemptResult attemptId outcome detail now)

def quarantine (request : PersistedFeeRequest) (detail : String) :
    Broadcast (Except String Unit) := do
  let now ← nowUnix
  let result ← budgeted b.storeBudget "the execution-quarantine write" (.insertExecutionQuarantine
    { reason := "ambiguous post-submission transport outcome: " ++ detail
      cycleId := none
      channelId := some request.channelId
      requestId := some request.requestId
      enteredAt := now })
  pure (result.map fun _ => ())

def resultPersistenceUnknown (request : PersistedFeeRequest) (rpcOutcome detail : String) :
    Broadcast BroadcastError := do
  storePoisoned
  let _ ← quarantine b request ("unrecordable terminal result (" ++ "`" ++ rpcOutcome ++
      "`): " ++ detail)
  pure (.resultPersistenceUnknown request.requestId rpcOutcome detail)

def attemptSend (request : PersistedFeeRequest) : Broadcast SendOutcome := do
  match ← connect with
  | .timedOut =>
    pure (.cleanFailure "connect to lightning-rpc timed out before any write was attempted")
  | .failed text => pure (.cleanFailure ("connect failed: " ++ text))
  | .connected => do
    let handle ← setchannel request.toParams
    let reply ← response handle
    pure reply.classify

/-- The terminal row of an outcome that leaves no doubt. -/
def recordTerminal (request : PersistedFeeRequest) (attemptId : ℕ)
    (outcome : BroadcastAttemptOutcome) (rpcOutcome : String) (detail : Option String)
    (result : Except BroadcastError BatchRequestOutcome) :
    Broadcast (Except BroadcastError BatchRequestOutcome) := do
  match ← recordResult b attemptId outcome detail with
  | .error e => do
    let error ← resultPersistenceUnknown b request rpcOutcome e
    pure (.error error)
  | .ok () => pure result

/-- The quarantine comes before the terminal row, and without it that row is not written. -/
def ambiguousExit (request : PersistedFeeRequest) (attemptId : ℕ) (detail : String) :
    Broadcast (Except BroadcastError BatchRequestOutcome) := do
  match ← quarantine b request detail with
  | .error quarantineErr => do
    storePoisoned
    pure (.error (.ambiguous request.requestId (detail ++ " (quarantine insert ALSO failed: " ++
      quarantineErr ++ "; this process is now poisoned)")))
  | .ok () => do
    match ← recordResult b attemptId .ambiguous (some detail) with
    | .error e => do
      storePoisoned
      pure (.error (.resultPersistenceUnknown request.requestId "ambiguous" e))
    | .ok () => pure (.error (.ambiguous request.requestId detail))

def intentOutcomeUnknown (request : PersistedFeeRequest) :
    Broadcast (Except BroadcastError BatchRequestOutcome) := do
  storePoisoned
  let detail := "store_intent_outcome_unknown: the intent write for request " ++
    request.requestId ++ " was admitted but produced no reply within the store budget; the " ++
    "write may still land (restart reconciliation quarantines the orphan) and this process is " ++
    "now poisoned"
  let _ ← quarantine b request detail
  pure (.error (.persistence detail))

def broadcastIntent (request : PersistedFeeRequest) (submittedAt : ℤ) : BroadcastAttemptIntent where
  cycleId := request.cycleId
  channelId := request.channelId
  requestId := request.requestId
  method := setchannelMethod
  paramsJson := SerdeJson.toString request.toParams
  submittedAt := submittedAt

def sendRecorded (request : PersistedFeeRequest) (attemptId : ℕ) :
    Broadcast (Except BroadcastError BatchRequestOutcome) := do
  match ← attemptSend request with
  | .success response =>
    recordTerminal b request attemptId .success "success" none
      (.ok ⟨request.requestId, request.channelId, response⟩)
  | .rejected detail =>
    recordTerminal b request attemptId .rejected "rejected" (some detail)
      (.error (.rejected request.requestId detail))
  | .cleanFailure detail =>
    recordTerminal b request attemptId .cleanFailure "clean_failure" (some detail)
      (.error (.cleanFailure request.requestId detail))
  | .ambiguous detail => ambiguousExit b request attemptId detail

/-- One turn of the loop in broadcast_batch. -/
def broadcastRequest (request : PersistedFeeRequest) :
    Broadcast (Except BroadcastError BatchRequestOutcome) := do
  let submittedAt ← nowUnix
  match ← tryStoreCall (.insertBroadcastAttempt (broadcastIntent request submittedAt)) with
  | .error refused => pure (.error (.persistence ("store_admission_refused: " ++ refused.text ++
      " -- a clean non-write; the batch was denied before anything could be enqueued")))
  | .ok (.replied (.error e)) => pure (.error (.persistence
      ("the broadcast-attempt intent write failed: " ++ StoreErrorText.text e)))
  | .ok .outcomeUnknown => intentOutcomeUnknown b request
  | .ok (.replied (.ok attemptId)) => sendRecorded b request attemptId

/-- The loop stops at the first outcome other than a success. -/
def broadcastRequests : List PersistedFeeRequest → List BatchRequestOutcome →
    Broadcast (Except BroadcastError BatchReceipt)
  | [], outcomes => pure (.ok outcomes)
  | request :: requests, outcomes => do
    match ← broadcastRequest b request with
    | .error e => pure (.error e)
    | .ok outcome => broadcastRequests requests (outcomes ++ [outcome])

/-- ClnFeeBroadcaster::broadcast_batch. The authorization is used for its age alone. -/
def broadcastBatch (authorization : LiveBatchAuthorization) (requests : List PersistedFeeRequest) :
    Broadcast (Except BroadcastError BatchReceipt) := do
  if ← loadPoisoned then pure (.error .poisoned) else do
  let now ← instantNow
  let age := now - authorization.mintedAt
  if authorizationDispatchFreshness * nanosPerSecond < age then
    pure (.error (.authorizationStale (age / nanosPerSecond) authorizationDispatchFreshness))
      else do
  match ← budgeted b.storeBudget "the send-path active-quarantine read"
      .activeExecutionQuarantine with
  | .error detail => pure (.error (.persistence detail))
  | .ok (some _) => pure (.error .quarantined)
  | .ok none => broadcastRequests b requests []

/-- ClnFeeBroadcaster::new, whose flag starts unset where this succeeds. -/
def newBroadcaster : Broadcast (Except String Unit) := do
  let now ← nowUnix
  match ← storeCall (.reconcileQuarantineOnRestart now) with
  | .replied (.ok _) => pure (.ok ())
  | .replied (.error e) => pure (.error (StoreErrorText.text e))
  | .outcomeUnknown => pure (.error (StoreErrorText.text .replyDropped))

end Program

/-- One request on the socket: its parameters, the attempts that were on record when it was
written, and the reply once there is one. -/
structure WireWrite where
  params : Json
  ledger : List AttemptRecord
  reply : Option CallReply

structure Host where
  tables : FeeTables
  queue : List StoreCommand
  poisoned : Bool
  wire : List WireWrite

section World

def Host.after (s : Host) (tables : FeeTables) : Host := { s with tables := tables }
def Host.enqueue (s : Host) (c : StoreCommand) : Host := { s with queue := s.queue ++ [c] }

def runwayResult {α : Type} : Outcome RunwayError α → Option (Except StoreError α)
  | .ok a => some (.ok a)
  | .err e => some (.error (.runway e))
  | .panic => none

/-- An admitted command: the actor runs it and replies, or nothing is known about it. -/
inductive Receipt (c : StoreCommand) (s : Host) : StoreReceiptWait c.Result → Host → Prop where
  | replied (faults : List (Option Fault)) {r : Except StoreError c.Result}
      (h : runwayResult (call c.run faults s.tables).1 = some r) :
      Receipt c s (.replied r) (s.after (call c.run faults s.tables).2)
  | unknown : Receipt c s .outcomeUnknown (s.enqueue c)

/-- A command awaited at the handle. An error of the handle itself says whether the command was
sent, and not whether it ran. -/
inductive Awaited (c : StoreCommand) (s : Host) : StoreReceiptWait c.Result → Host → Prop where
  | receipt {r : StoreReceiptWait c.Result} {t : Host} (h : Receipt c s r t) : Awaited c s r t
  | gone : Awaited c s (.replied (.error .actorGone)) s
  | dropped : Awaited c s (.replied (.error .replyDropped)) (s.enqueue c)

def answers : (op : Op) → Host → Reply op → Host → Prop
  | .loadPoisoned, s, r, t => r = s.poisoned ∧ t = s
  | .storePoisoned, s, _, t => t = { s with poisoned := true }
  | .store c, s, r, t => Awaited c s r t
  | .tryStore _, s, .error _, t => t = s
  | .tryStore c, s, .ok r, t => Receipt c s r t
  | .setchannel params, s, r, t => r = s.wire.length ∧
      t = { s with wire := s.wire ++ [⟨params, s.tables.attempts.rows, none⟩] }
  | .response handle, s, r, t =>
      t = { s with wire := s.wire.modify handle fun w => { w with reply := some r } }
  | _, s, _, t => t = s

/-- The actor takes a queued command, or a command is lost with its reply, or the cycle loop
commits through the same actor. -/
inductive Drifts (s : Host) : Host → Prop where
  | lands {i : ℕ} {c : StoreCommand} (h : s.queue[i]? = some c) (faults : List (Option Fault)) :
      Drifts s { s with tables := (call c.run faults s.tables).2, queue := s.queue.eraseIdx i }
  | lost (i : ℕ) : Drifts s { s with queue := s.queue.eraseIdx i }
  | commits (commit : FeeCycleCommit) (faults : List (Option Fault)) :
      Drifts s (s.after (call (commitFeeCycle commit) faults s.tables).2)

def hostWorld : World Op Reply Host := ⟨answers, Drifts⟩

end World

end FeeBroadcaster
