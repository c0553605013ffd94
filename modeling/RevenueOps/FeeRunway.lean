import RevenueOps.KeyedTable
import RevenueOps.SqlTransaction
import Mathlib.Data.List.Sort

/-! The fee runway's part of the observer database: the fee state and its generation, what one
cycle leaves for audit, seed provenance, broadcast attempts and the execution quarantine.
No seed, attempt or quarantine entry is ever deleted, so AUTOINCREMENT goes on from the largest id.
The retention sweep does delete old outcomes and trigger events; no result here is about those. -/
namespace FeeRunway

open FallibleState SqlTransaction KeyedTable

structure FeeStateRow where
  channelId : String
  v2StateJson : String
  lastUpdate : ℤ
  deriving DecidableEq

structure PreparedFeeActionRow where
  channelId : String
  idempotencyKey : Option String
  oldFeePpm : ℤ
  newFeePpm : ℤ
  feebaseMsat : ℤ
  htlcminMsat : Option ℤ
  htlcmaxMsat : Option ℤ
  message : String
  at_ : ℤ
  deriving DecidableEq

structure GovernorAuditRow where
  channelId : String
  authorized : Bool
  reasonCode : String
  intentId : String
  idempotencyKey : String
  at_ : ℤ
  deriving DecidableEq

structure LedgerAuditRow where
  channelId : String
  eventType : String
  intentId : String
  idempotencyKey : String
  snapshotId : String
  at_ : ℤ
  detailsJson : String
  deriving DecidableEq

structure ShadowCycleOutcomeRow where
  cycleTs : ℤ
  channelId : String
  wouldBroadcast : Bool
  hasAlgorithmValues : Bool
  disposition : Option String
  skipGateComparable : Bool
  deriving DecidableEq

structure FeeTriggerEventRow where
  triggerType : String
  channelId : Option String
  cycleTs : Option ℤ
  receivedAt : ℤ
  coalesced : Bool
  detail : Option String
  deriving DecidableEq

structure FeeSeedEventRow where
  seededAt : ℤ
  outcome : String
  sourceDbPath : String
  sourceMaxLastUpdate : ℤ
  rowCount : ℤ
  payloadSha256 : String
  sourceCommit : String
  refusedChannel : Option String
  refusedField : Option String
  detail : Option String
  deriving DecidableEq

structure FeeCycleCommit where
  cycleId : String
  startedAt : ℤ
  completedAt : ℤ
  sourceCommit : String
  binarySha256 : String
  stateRows : List FeeStateRow
  requests : List PreparedFeeActionRow
  governor : List GovernorAuditRow
  ledger : List LedgerAuditRow
  outcomes : List ShadowCycleOutcomeRow
  pendingSeed : Option FeeSeedEventRow
  triggerReceipt : Option FeeTriggerEventRow

structure BroadcastAttemptIntent where
  cycleId : Option String
  channelId : String
  requestId : String
  method : String
  paramsJson : String
  submittedAt : ℤ
  deriving DecidableEq

inductive BroadcastAttemptOutcome where
  | success
  | rejected
  | cleanFailure
  | ambiguous
  deriving DecidableEq, Repr

structure QuarantineEntry where
  reason : String
  cycleId : Option String
  channelId : Option String
  requestId : Option String
  enteredAt : ℤ
  deriving DecidableEq

structure QuarantineRow where
  id : ℕ
  reason : String
  cycleId : Option String
  channelId : Option String
  requestId : Option String
  enteredAt : ℤ
  deriving DecidableEq

section Records

structure GenerationRecord where
  generation : ℤ
  updatedAt : ℤ
  deriving DecidableEq

structure StateRecord where
  row : FeeStateRow
  generation : ℤ
  deriving DecidableEq

def StateRecord.channelId (r : StateRecord) : String := r.row.channelId

structure CycleRecord where
  cycleId : String
  generation : ℤ
  startedAt : ℤ
  completedAt : ℤ
  sourceCommit : String
  binarySha256 : String
  requestCount : ℕ
  deriving DecidableEq

/-- A row that one cycle leaves for one channel, under UNIQUE (cycle_id, channel_id). -/
structure CycleChannelRecord (ρ : Type) where
  cycleId : String
  channelId : String
  row : ρ
  deriving DecidableEq

def CycleChannelRecord.key {ρ : Type} (r : CycleChannelRecord ρ) : String × String :=
  (r.cycleId, r.channelId)

inductive LedgerRecord where
  | governor (cycleId : String) (row : GovernorAuditRow)
  | ledger (cycleId : String) (row : LedgerAuditRow)
  deriving DecidableEq

structure TriggerRecord where
  cycleId : String
  row : FeeTriggerEventRow
  deriving DecidableEq

structure SeedRecord where
  id : ℕ
  row : FeeSeedEventRow
  boundCycleId : Option String
  boundGeneration : Option ℤ
  deriving DecidableEq

def SeedRecord.seeded (r : SeedRecord) : Bool := r.row.outcome = "seeded"
def SeedRecord.refused (r : SeedRecord) : Bool := r.row.outcome = "seed_refused"

structure AttemptRecord where
  id : ℕ
  intent : BroadcastAttemptIntent
  outcome : Option BroadcastAttemptOutcome
  outcomeDetail : Option String
  completedAt : Option ℤ
  deriving DecidableEq

structure QuarantineRecord where
  row : QuarantineRow
  clearedAt : Option ℤ
  deriving DecidableEq

def QuarantineRecord.id (r : QuarantineRecord) : ℕ := r.row.id
def QuarantineRecord.active (r : QuarantineRecord) : Bool := r.clearedAt.isNone

end Records

structure FeeTables where
  generation : Option GenerationRecord
  states : Table StateRecord String StateRecord.channelId
  cycles : Table CycleRecord String CycleRecord.cycleId
  requests : Table (CycleChannelRecord PreparedFeeActionRow) (String × String)
    CycleChannelRecord.key
  ledger : List LedgerRecord
  outcomes : Table (CycleChannelRecord ShadowCycleOutcomeRow) (String × String)
    CycleChannelRecord.key
  triggers : List TriggerRecord
  seeds : Table SeedRecord ℕ SeedRecord.id
  attempts : Table AttemptRecord ℕ AttemptRecord.id
  quarantine : Table QuarantineRecord ℕ QuarantineRecord.id

def FeeTables.empty : FeeTables where
  generation := none
  states := .empty
  cycles := .empty
  requests := .empty
  ledger := []
  outcomes := .empty
  triggers := []
  seeds := .empty
  attempts := .empty
  quarantine := .empty

inductive RunwayError where
  | sqlite (context : String) (e : SqlError)
  | pendingSeedOutcome (got : String)
  | pendingSeedPriorGeneration (priorGeneration : ℤ)
  | pendingSeedBoundGeneration (got : ℤ)
  | refusalOutcome (got : String)
  | noBroadcastAttempt (id : ℕ)
  deriving DecidableEq, Repr

abbrev Runway (α : Type) := Eff (Connection FeeTables) RunwayError α

section Statements

def select {α : Type} (context : String) (f : FeeTables → α) : Runway α :=
  Eff.mapErr (.sqlite context) (query fun t => .ok (f t))

/-- A write that a constraint may refuse. -/
def execute (context : String) (f : FeeTables → Option FeeTables) : Runway Unit :=
  Eff.mapErr (.sqlite context) (statement fun t =>
    match f t with
    | some u => .ok ((), u)
    | none => .error .constraint)

/-- An insert with the row id that it leaves in last_insert_rowid. -/
def executeInsert (context : String) (id : FeeTables → ℕ) (f : FeeTables → Option FeeTables) :
    Runway ℕ :=
  Eff.mapErr (.sqlite context) (statement fun t =>
    match f t with
    | some u => .ok (id t, u)
    | none => .error .constraint)

def beginTransaction (context : String) : Runway Unit :=
  Eff.mapErr (.sqlite context) beginImmediate

end Statements

namespace FeeTables

variable (t : FeeTables)

/-- Foreign keys to rust_fee_cycles. -/
def hasCycle (cycleId : String) : Bool := (t.cycles.find? cycleId).isSome

def insertCycle (r : CycleRecord) : Option FeeTables :=
  (t.cycles.insert? r).map fun cycles => { t with cycles := cycles }

def upsertState (r : StateRecord) : FeeTables := { t with states := t.states.insertOrReplace r }

def insertRequest (r : CycleChannelRecord PreparedFeeActionRow) : Option FeeTables :=
  if t.hasCycle r.cycleId then
    (t.requests.insert? r).map fun requests => { t with requests := requests }
  else none

def insertLedger (cycleId : String) (r : LedgerRecord) : Option FeeTables :=
  if t.hasCycle cycleId then some { t with ledger := t.ledger ++ [r] } else none

def insertOutcome (r : CycleChannelRecord ShadowCycleOutcomeRow) : Option FeeTables :=
  if t.hasCycle r.cycleId then
    (t.outcomes.insert? r).map fun outcomes => { t with outcomes := outcomes }
  else none

def insertTrigger (r : TriggerRecord) : Option FeeTables :=
  if t.hasCycle r.cycleId then some { t with triggers := t.triggers ++ [r] } else none

/-- The index that keeps at most one successful seed row. -/
def insertSeed (ev : FeeSeedEventRow) (boundCycleId : Option String) (boundGeneration : Option ℤ) :
    Option FeeTables :=
  if ev.outcome = "seeded" ∧ t.seeds.rows.any SeedRecord.seeded then none
  else if ev.outcome = "seeded" ∨ ev.outcome = "seed_refused" then
    some { t with
      seeds := t.seeds.insertNext (fun n => ⟨n, ev, boundCycleId, boundGeneration⟩) (fun _ => rfl) }
  else none

def insertAttempt (intent : BroadcastAttemptIntent) : Option FeeTables :=
  if t.attempts.rows.any fun r => r.intent.requestId = intent.requestId then none
  else some { t with
    attempts := t.attempts.insertNext (fun n => ⟨n, intent, none, none, none⟩) (fun _ => rfl) }

def setOutcome (id : ℕ) (outcome : BroadcastAttemptOutcome) (outcomeDetail : Option String)
    (completedAt : ℤ) : FeeTables :=
  { t with
    attempts := t.attempts.updateWhere (fun r => r.id = id)
      (fun r => { r with
        outcome := some outcome, outcomeDetail := outcomeDetail, completedAt := some completedAt })
      (fun _ => rfl) }

def insertQuarantineRow (entry : QuarantineEntry) : Option FeeTables :=
  if entry.cycleId.all t.hasCycle then
    some { t with
      quarantine := t.quarantine.insertNext
        (fun n => ⟨⟨n, entry.reason, entry.cycleId, entry.channelId, entry.requestId,
          entry.enteredAt⟩, none⟩) (fun _ => rfl) }
  else none

end FeeTables

open FeeTables

section Generation

/-- The stored generation, and 0 where no cycle has committed. -/
def FeeTables.currentGeneration (t : FeeTables) : ℤ :=
  (t.generation.map GenerationRecord.generation).getD 0

def currentStateGeneration : Runway ℕ := do
  let generation ← select "read fee state generation" currentGeneration
  pure generation.toNat

end Generation

section Commit

def i64Max : ℤ := 9223372036854775807

def insertSuccessfulSeedLocked (ev : FeeSeedEventRow) (priorGeneration : ℤ) (boundCycleId : String)
    (boundGeneration : ℤ) : Runway Unit := do
  if ev.outcome ≠ "seeded" then
    Eff.throw (.pendingSeedOutcome ev.outcome) else
  if priorGeneration ≠ 0 then
    Eff.throw (.pendingSeedPriorGeneration priorGeneration) else
  if boundGeneration ≠ 1 then
    Eff.throw (.pendingSeedBoundGeneration boundGeneration) else
  execute "insert bound successful seed provenance row" fun t =>
    t.insertSeed ev (some boundCycleId) (some boundGeneration)

/-- The rows of commit_fee_cycle_locked, in the order of the source. -/
def commitRows (commit : FeeCycleCommit) : Runway ℤ := do
  let currentGeneration ← select "read current fee state generation" currentGeneration
  let nextGeneration ← Eff.checked
    (if currentGeneration + 1 ≤ i64Max then some (currentGeneration + 1) else none)
  execute "insert rust_fee_cycles row" fun t => t.insertCycle
    { cycleId := commit.cycleId
      generation := nextGeneration
      startedAt := commit.startedAt
      completedAt := commit.completedAt
      sourceCommit := commit.sourceCommit
      binarySha256 := commit.binarySha256
      requestCount := commit.requests.length }
  commit.stateRows.forM fun row =>
    execute "upsert rust_fee_state row" fun t => some (t.upsertState ⟨row, nextGeneration⟩)
  commit.requests.forM fun row =>
    execute "insert rust_fee_requests row" fun t =>
      t.insertRequest ⟨commit.cycleId, row.channelId, row⟩
  commit.governor.forM fun row =>
    execute "insert governor audit row" fun t =>
      t.insertLedger commit.cycleId (.governor commit.cycleId row)
  commit.ledger.forM fun row =>
    execute "insert ledger audit row" fun t =>
      t.insertLedger commit.cycleId (.ledger commit.cycleId row)
  commit.outcomes.forM fun row =>
    execute "insert shadow outcome row" fun t =>
      t.insertOutcome ⟨commit.cycleId, row.channelId, row⟩
  execute "bump fee state generation" fun t =>
    some { t with generation := some ⟨nextGeneration, commit.completedAt⟩ }
  commit.triggerReceipt.forM fun receipt =>
    execute "insert atomic trigger receipt row" fun t => t.insertTrigger ⟨commit.cycleId, receipt⟩
  commit.pendingSeed.forM fun seed =>
    insertSuccessfulSeedLocked seed currentGeneration commit.cycleId nextGeneration
  pure nextGeneration

/-- commit_fee_cycle_locked and the ROLLBACK with which both of its callers answer an error. -/
def commitFeeCycleLocked (commit : FeeCycleCommit) : Runway ℕ := do
  let generation ← guarded (.sqlite "commit fee cycle transaction") (commitRows commit)
  pure generation.toNat

def commitFeeCycle (commit : FeeCycleCommit) : Runway ℕ := do
  beginTransaction "begin fee cycle commit transaction"
  commitFeeCycleLocked commit

inductive GuardedCommitOutcome where
  | committed (generation : ℕ)
  | generationConflict (expected found : ℕ)
  deriving DecidableEq, Repr

def commitFeeCycleGuarded (commit : FeeCycleCommit) (expectedPriorGeneration : ℕ) :
    Runway GuardedCommitOutcome := do
  beginTransaction "begin guarded fee cycle commit transaction"
  match ← Eff.attempt currentStateGeneration with
  | .error e => do
    rollbackQuietly
    Eff.throw e
  | .ok found =>
    if found ≠ expectedPriorGeneration then do
      rollbackQuietly
      pure (.generationConflict expectedPriorGeneration found)
    else do
      let generation ← commitFeeCycleLocked commit
      pure (.committed generation)

end Commit

section Seeds

def recordSeedRefusal (ev : FeeSeedEventRow) : Runway ℕ := do
  if ev.outcome ≠ "seed_refused" then
    Eff.throw (.refusalOutcome ev.outcome) else
  executeInsert "insert seed refusal row" (fun t => t.seeds.nextKey) fun t =>
    t.insertSeed ev none none

inductive SeedBindingState where
  | virginStore
  | verifiedBound (cycleId : String)
  | invalid (reason : String)
  deriving DecidableEq, Repr

/-- The verdict on a store of generation 1 or later with one successful seed row. -/
def boundSeed (success : SeedRecord) : Runway SeedBindingState := do
  let laterRefusals ← select "count post-success refusal rows" fun t =>
    t.seeds.rows.countP fun r => r.refused && success.id < r.id
  if 0 < laterRefusals then
    pure (.invalid (toString laterRefusals ++
      " refusal row(s) recorded AFTER the successful bound seed — conflicting provenance " ++
      "(refusals may only precede the one atomic success)")) else
  match success.boundCycleId, success.boundGeneration with
  | some cycleId, some boundGeneration =>
    if boundGeneration ≠ 1 then
      pure (.invalid ("successful seed row binds generation " ++ toString boundGeneration ++
        ", not 1")) else do
    let cycle ← select "read bound seed cycle row" fun t =>
      (t.cycles.find? cycleId).map CycleRecord.generation
    match cycle with
    | some 1 => pure (.verifiedBound cycleId)
    | some other => pure (.invalid ("seed-bound cycle " ++ cycleId ++ " exists at generation " ++
        toString other ++ ", not 1"))
    | none => pure (.invalid ("seed-bound cycle " ++ cycleId ++ " does not exist"))
  | _, _ => pure (.invalid ("successful seed row is UNBOUND (legacy standalone row; requires " ++
      "explicit verified reconciliation, never silent acceptance)"))

def verifiedSeedBinding : Runway SeedBindingState := do
  let generation ← currentStateGeneration
  let seeded ← select "read successful-seed rows" fun t =>
    (t.seeds.rows.filter SeedRecord.seeded).insertionSort fun a b => a.id ≤ b.id
  if generation = 0 then
    if seeded.isEmpty then pure .virginStore
    else pure (.invalid "successful seed row exists on a generation-0 store") else
  match seeded with
  | [] => pure (.invalid ("generation " ++ toString generation ++
      " store has NO successful seed " ++
      "row (an out-of-cycle-first or corrupt store; never authority-eligible)"))
  | [success] => boundSeed success
  | more => pure (.invalid (toString more.length ++
      " successful seed rows exist; SeedOnce permits exactly one"))

end Seeds

section Broadcast

def insertQuarantine (entry : QuarantineEntry) : Runway ℕ :=
  executeInsert "insert execution quarantine row" (fun t => t.quarantine.nextKey) fun t =>
    t.insertQuarantineRow entry

/-- ORDER BY entered_at DESC, id DESC. -/
def QuarantineRow.enteredBefore (a b : QuarantineRow) : Bool :=
  a.enteredAt < b.enteredAt ∨ (a.enteredAt = b.enteredAt ∧ a.id < b.id)

def latestEntry : List QuarantineRow → Option QuarantineRow
  | [] => none
  | r :: rows =>
    match latestEntry rows with
    | none => some r
    | some q => if r.enteredBefore q then some q else some r

def FeeTables.activeEntry (t : FeeTables) : Option QuarantineRow :=
  latestEntry ((t.quarantine.rows.filter QuarantineRecord.active).map QuarantineRecord.row)

def activeQuarantine : Runway (Option QuarantineRow) :=
  select "read active execution quarantine" activeEntry

def insertBroadcastAttempt (intent : BroadcastAttemptIntent) : Runway ℕ :=
  executeInsert "insert broadcast attempt intent" (fun t => t.attempts.nextKey) fun t =>
    t.insertAttempt intent

def recordBroadcastAttemptResult (id : ℕ) (outcome : BroadcastAttemptOutcome)
    (outcomeDetail : Option String) (completedAt : ℤ) : Runway Unit := do
  let updated ← Eff.mapErr (.sqlite "record broadcast attempt result") (statement fun t =>
    .ok (t.attempts.rows.countP fun r => r.id = id,
      t.setOutcome id outcome outcomeDetail completedAt))
  if updated = 0 then Eff.throw (.noBroadcastAttempt id) else pure ()

def FeeTables.unresolved (t : FeeTables) : List AttemptRecord :=
  (t.attempts.rows.filter fun r => r.outcome.isNone).insertionSort fun a b => a.id ≤ b.id

def unresolvedBroadcastAttempts : Runway (List AttemptRecord) :=
  select "collect unresolved broadcast attempts" unresolved

def reconciledDetail : String :=
  "resolved via restart reconciliation: no result was recorded before the prior process exited"

/-- The entry names the last orphan, and no cycle: a live attempt's cycle need not exist. -/
def reconciliationEntry (orphaned : ℕ) (last : BroadcastAttemptIntent) (now : ℤ) :
    QuarantineEntry where
  reason := "restart reconciliation: " ++ toString orphaned ++
    " broadcast attempt(s) had no recorded result at startup"
  cycleId := none
  channelId := some last.channelId
  requestId := some last.requestId
  enteredAt := now

def reconcileQuarantineOnRestartLocked (now : ℤ) : Runway ℕ := do
  let orphaned ← unresolvedBroadcastAttempts
  match orphaned.getLast? with
  | none => pure 0
  | some last => do
    orphaned.forM fun row =>
      recordBroadcastAttemptResult row.id .ambiguous (some reconciledDetail) now
    let active ← activeQuarantine
    if active.isNone then do
      let _ ← insertQuarantine (reconciliationEntry orphaned.length last.intent now)
      pure orphaned.length
    else pure orphaned.length

def reconcileQuarantineOnRestart (now : ℤ) : Runway ℕ := do
  beginTransaction "begin quarantine reconciliation transaction"
  guarded (.sqlite "commit quarantine reconciliation transaction")
    (reconcileQuarantineOnRestartLocked now)

end Broadcast

end FeeRunway
