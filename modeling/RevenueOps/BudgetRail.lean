import RevenueOps.JsonValue
import RevenueOps.KeyedTable
import RevenueOps.SqlTransaction

/-! The budget rail: reserve, settle, release and sweep over the reservation tables.
Amounts are integers; every i64 operation that the release profile checks is a checked one. -/
namespace BudgetRail

open FallibleState SqlTransaction KeyedTable RustText JsonValue

def maxAmountSats : ℤ := 10000000000

def committedOnchainSpendCategories : List String := ["channel_open", "channel_close", "boltz"]

inductive Status where
  | active
  | spent
  | released
  | other (text : String)
  deriving DecidableEq, Repr

structure SpendReservation where
  reservationId : String
  category : String
  subcategory : Option String
  reservedSats : ℤ
  reservedAt : ℤ
  referenceId : Option String
  channelId : Option String
  status : Status
  metadataJson : Option String
  deriving DecidableEq

structure BudgetReservation where
  reservationId : String
  reservedSats : ℤ
  reservedAt : ℤ
  jobChannelId : String
  status : Status
  deriving DecidableEq

structure SpendEventRow where
  eventId : String
  category : String
  subcategory : Option String
  amountSats : ℤ
  timestamp : ℤ
  referenceId : Option String
  channelId : Option String
  source : Option String
  metadataJson : Option String
  deriving DecidableEq

structure RebalanceCost where
  costSats : Option ℤ
  timestamp : Option ℤ
  deriving DecidableEq

structure HistoryRow where
  id : ℤ
  status : String
  deriving DecidableEq

/-- The tables the rail reads. rebalance_history belongs to another owner and may be missing. -/
structure RailTables where
  spendReservations : Table SpendReservation String SpendReservation.reservationId
  budgetReservations : Table BudgetReservation String BudgetReservation.reservationId
  spendEvents : Table SpendEventRow String SpendEventRow.eventId
  rebalanceCosts : List RebalanceCost
  rebalanceHistory : Option (List HistoryRow)
  deriving DecidableEq

inductive BudgetError where
  | sqlite (e : SqlError)
  | metadata (message : String) (value : Json)
  | invalidInput (message : String)

structure ReserveRequest where
  reservationId : String
  amountSats : ℤ
  category : String
  subcategory : Option String := none
  referenceId : Option String := none
  channelId : Option String := none
  metadata : Option Json := none
  effectiveBudgetSats : Option ℤ := none
  sinceTimestamp : Option ℤ := none
  weeklyBudgetLimit : Option ℤ := none
  weeklySinceTimestamp : Option ℤ := none

structure SpendEvent where
  eventId : String
  category : String
  amountSats : ℤ
  subcategory : Option String := none
  timestamp : ℤ
  referenceId : Option String := none
  channelId : Option String := none
  source : Option String := none
  metadata : Option Json := none

structure ClearStats where
  clearedCount : ℤ
  releasedSats : ℤ
  deriving DecidableEq

abbrev Rail (α : Type) := Eff (Connection RailTables) BudgetError α

def sql {α : Type} (m : Sql RailTables α) : Rail α := m.mapErr BudgetError.sqlite

def i64Min : ℤ := -9223372036854775808
def i64Max : ℤ := 9223372036854775807

def checkedI64 (x : ℤ) : Option ℤ := if i64Min ≤ x ∧ x ≤ i64Max then some x else none

def checkedTotal (xs : List ℤ) : Option ℤ := xs.foldlM (fun acc x => checkedI64 (acc + x)) 0

/-- SUM over integers raises an error once the running sum leaves i64. -/
def sumI64 (xs : List ℤ) : Except SqlError ℤ :=
  match checkedTotal xs with
  | some v => .ok v
  | none => .error .integerOverflow

def sanitizeAmount (amountSats : ℤ) : ℤ :=
  if maxAmountSats < |amountSats| then
    if 0 ≤ amountSats then maxAmountSats else -maxAmountSats
  else amountSats

def metadataJson : Option Json → Except BudgetError (Option String)
  | none => .ok none
  | some (.obj []) => .ok none
  | some (.obj members) =>
    match writeValue (.obj members) with
    | .ok text => .ok (some text)
    | .error x => .error (.metadata "budget metadata forbids non-integer numbers: " (.float x))
  | some other => .error (.metadata "metadata must be a JSON object, got: " other)

namespace RailTables

def empty (history : Option (List HistoryRow)) : RailTables :=
  ⟨.empty, .empty, .empty, [], history⟩

def spendActive (r : SpendReservation) : Bool := r.status = .active
def legacyActive (r : BudgetReservation) : Bool := r.status = .active

def costInWindow (since : ℤ) (c : RebalanceCost) : Bool :=
  match c.timestamp with
  | some ts => since ≤ ts
  | none => false

def eventInWindow (since : ℤ) (e : SpendEventRow) : Bool := since ≤ e.timestamp

def costsSince (t : RailTables) (since : ℤ) : List ℤ :=
  (t.rebalanceCosts.filter (costInWindow since)).filterMap RebalanceCost.costSats

def eventsSince (t : RailTables) (since : ℤ) : List ℤ :=
  (t.spendEvents.rows.filter (eventInWindow since)).map SpendEventRow.amountSats

def spendHolds (t : RailTables) : List ℤ :=
  (t.spendReservations.rows.filter spendActive).map SpendReservation.reservedSats

def legacyHolds (t : RailTables) : List ℤ :=
  (t.budgetReservations.rows.filter legacyActive).map BudgetReservation.reservedSats

/-- UPDATE spend_reservations SET status WHERE status = 'active' AND p. -/
def flipSpend (t : RailTables) (p : SpendReservation → Bool) (status : Status) : RailTables :=
  { t with
    spendReservations := t.spendReservations.updateWhere (fun r => spendActive r && p r)
      (fun r => { r with status := status }) fun _ => rfl }

def flipLegacy (t : RailTables) (p : BudgetReservation → Bool) (status : Status) : RailTables :=
  { t with
    budgetReservations := t.budgetReservations.updateWhere (fun r => legacyActive r && p r)
      (fun r => { r with status := status }) fun _ => rfl }

def putReservation (t : RailTables) (r : SpendReservation) : RailTables :=
  { t with spendReservations := t.spendReservations.insertOrReplace r }

def putEvent (t : RailTables) (e : SpendEventRow) : RailTables :=
  { t with spendEvents := t.spendEvents.insertOrReplace e }

def countSpend (t : RailTables) (p : SpendReservation → Bool) : ℕ :=
  t.spendReservations.rows.countP fun r => spendActive r && p r

def countLegacy (t : RailTables) (p : BudgetReservation → Bool) : ℕ :=
  t.budgetReservations.rows.countP fun r => legacyActive r && p r

/-- SELECT CAST(id AS TEXT) FROM rebalance_history WHERE status = 'pending_settlement'. -/
def parkedIds (t : RailTables) : Except SqlError (List String) :=
  match t.rebalanceHistory with
  | none => .error .noSuchTable
  | some rows =>
    .ok ((rows.filter fun r => r.status = "pending_settlement").map fun r => toString r.id)

end RailTables

open RailTables

def updateSpend (p : SpendReservation → Bool) (status : Status) : Sql RailTables ℕ :=
  statement fun t => .ok (t.countSpend p, t.flipSpend p status)

def updateLegacy (p : BudgetReservation → Bool) (status : Status) : Sql RailTables ℕ :=
  statement fun t => .ok (t.countLegacy p, t.flipLegacy p status)

section Rail

variable [UnicodeCase]

/-- The status already stored under the id, and for an active row its amount. -/
def existingActiveSats (rid : String) : Option Status → Rail ℤ
  | some .active => sql (query fun t =>
      .ok (((t.spendReservations.find? rid).map SpendReservation.reservedSats).getD 0))
  | _ => pure 0

def dailyRemaining (budget since existing genReserved rebReserved : ℤ) : Rail ℤ := do
  let rebCommitted ← sql (query fun t => sumI64 (t.costsSince since))
  let genCommitted ← sql (query fun t => sumI64 (t.eventsSince since))
  let total ← Eff.checked (checkedTotal [genReserved, rebReserved, rebCommitted, genCommitted])
  let already ← Eff.checked (checkedI64 (total - existing))
  Eff.checked (checkedI64 (budget - already))

def weeklyRemaining (limit since existing genReserved rebReserved : ℤ) : Rail ℤ := do
  let weeklySpent ← sql (query fun t => sumI64 (t.costsSince since))
  let weeklyGenSpent ← sql (query fun t => sumI64 (t.eventsSince since))
  let total ← Eff.checked (checkedTotal [weeklySpent, rebReserved, genReserved, weeklyGenSpent])
  let already ← Eff.checked (checkedI64 (total - existing))
  Eff.checked (checkedI64 (limit - already))

def reservationRow (req : ReserveRequest) (rid cat : String) (amount : ℤ)
    (metaJson : Option String) (now : ℤ) : SpendReservation where
  reservationId := rid
  category := cat
  subcategory := req.subcategory
  reservedSats := amount
  reservedAt := now
  referenceId := req.referenceId
  channelId := req.channelId
  status := .active
  metadataJson := metaJson

def insertReservation (row : SpendReservation) : Rail Unit :=
  sql (statement fun t => .ok ((), t.putReservation row))

/-- The checks of reserve_spend_body with a budget, then the insert. A refusal names the
remaining headroom of the limit that it hits. -/
def reserveWithin (req : ReserveRequest) (budget budgetSince existing : ℤ)
    (row : SpendReservation) : Rail (Bool × ℤ) := do
  let genReserved ← sql (query fun t => sumI64 t.spendHolds)
  let rebReserved ← sql (query fun t => sumI64 t.legacyHolds)
  let daily ← dailyRemaining budget budgetSince existing genReserved rebReserved
  if daily < row.reservedSats then pure (false, daily) else
  match req.weeklyBudgetLimit, req.weeklySinceTimestamp with
  | some limit, some since => do
    let weekly ← weeklyRemaining limit since existing genReserved rebReserved
    if weekly < row.reservedSats then pure (false, weekly) else
    insertReservation row
    let after ← Eff.checked (checkedI64 (daily - row.reservedSats))
    let weeklyAfter ← Eff.checked (checkedI64 (weekly - row.reservedSats))
    pure (true, min after weeklyAfter)
  | _, _ => do
    insertReservation row
    let after ← Eff.checked (checkedI64 (daily - row.reservedSats))
    pure (true, after)

def reserveSpendBody (req : ReserveRequest) (budgetSince : ℤ) (row : SpendReservation) :
    Rail (Bool × ℤ) := do
  let existing ← sql (query fun t =>
    .ok ((t.spendReservations.find? row.reservationId).map SpendReservation.status))
  if existing = some .spent ∨ existing = some .released then pure (false, 0) else
  let existingSats ← existingActiveSats row.reservationId existing
  match req.effectiveBudgetSats with
  | some budget => reserveWithin req budget budgetSince existingSats row
  | none => do
    insertReservation row
    pure (true, 0)

/-- BudgetDb::reserve_spend. Sanitize rejects come before the transaction; refusals commit. -/
def reserveSpend (req : ReserveRequest) (now : ℤ) : Rail (Bool × ℤ) := do
  let amount := sanitizeAmount req.amountSats
  if amount ≤ 0 then pure (false, 0) else
  let rid := trim req.reservationId
  if rid = "" then pure (false, 0) else
  let cat := toLowercase (trim req.category)
  if cat = "" then pure (false, 0) else
  let metaJson ← Eff.ofExcept (metadataJson req.metadata)
  let dayAgo ← Eff.checked (checkedI64 (now - 24 * 3600))
  let budgetSince := req.sinceTimestamp.getD dayAgo
  sql beginImmediate
  let result ← Eff.attempt
    (reserveSpendBody req budgetSince (reservationRow req rid cat amount metaJson now))
  match result with
  | .ok _ => sql commit
  | .error _ => rollbackQuietly
  Eff.ofExcept result

def reserveBudget (reservationId : String) (amountSats : ℤ) (channelId : String)
    (budgetLimit sinceTimestamp : ℤ) (weeklyBudgetLimit weeklySinceTimestamp : Option ℤ)
    (now : ℤ) : Rail (Bool × ℤ) :=
  reserveSpend
    { reservationId := reservationId
      amountSats := amountSats
      category := "rebalance"
      channelId := some channelId
      effectiveBudgetSats := some budgetLimit
      sinceTimestamp := some sinceTimestamp
      weeklyBudgetLimit := weeklyBudgetLimit
      weeklySinceTimestamp := weeklySinceTimestamp } now

def releaseSpendReservation (reservationId : String) : Rail Bool := do
  let n ← sql (updateSpend (fun r => r.reservationId = reservationId) .released)
  pure (0 < n)

/-- The insert is tried three times while the database is busy or locked. -/
def writeEvent (row : SpendEventRow) : ℕ → Option SqlError → Rail Bool
  | 0, some last => Eff.throw (.sqlite last)
  | 0, none => Eff.panic
  | attempts + 1, _ => do
    match ← sql (Eff.attempt (statement fun t => .ok ((), t.putEvent row))) with
    | .ok () => pure true
    | .error e =>
      if e.isBusyOrLocked then writeEvent row attempts (some e) else Eff.throw (.sqlite e)

def eventRow (ev : SpendEvent) (eid cat : String) (amount : ℤ) (metaJson : Option String) :
    SpendEventRow where
  eventId := eid
  category := cat
  subcategory := ev.subcategory
  amountSats := amount
  timestamp := ev.timestamp
  referenceId := ev.referenceId
  channelId := ev.channelId
  source := ev.source
  metadataJson := metaJson

def recordSpendEventOn (ev : SpendEvent) : Rail Bool := do
  let eid := trim ev.eventId
  let cat := toLowercase (trim ev.category)
  if eid = "" ∨ cat = "" then pure false else
  let amount := sanitizeAmount ev.amountSats
  if amount ≤ 0 then pure false else
  let metaJson ← Eff.ofExcept (metadataJson ev.metadata)
  writeEvent (eventRow ev eid cat amount metaJson) 3 none

def recordSpendEvent (ev : SpendEvent) : Rail Unit := do
  if ← recordSpendEventOn ev then pure ()
  else Eff.throw (.invalidInput
    "spend event requires non-empty event_id/category and amount > 0")

inductive MarkSpentTx where
  | applied (changed : Bool)
  | eventRejected
  deriving DecidableEq

def settlementEvent (rid : String) (row : SpendReservation) (actualSpentSats : Option ℤ)
    (source : Option String) (now : ℤ) : SpendEvent where
  eventId := "resv:" ++ rid
  category := row.category
  amountSats := sanitizeAmount (actualSpentSats.getD row.reservedSats)
  subcategory := row.subcategory
  timestamp := now
  referenceId := row.referenceId
  channelId := row.channelId
  source := some (source.getD "reservation_settlement")
  metadata := some (.obj [("reservation_id", .str rid)])

/-- mark_spent_in_tx: the row flips before its event is known to be writable, so a rejected
event is reported apart and the caller must roll back. -/
def markSpentInTx (rid : String) (actualSpentSats : Option ℤ) (source : Option String)
    (recordEvent : Bool) (now : ℤ) : Rail MarkSpentTx := do
  let rid := trim rid
  if rid = "" then pure (.applied false) else
  match ← sql (query fun t => .ok (t.spendReservations.find? rid)) with
  | none => pure (.applied false)
  | some row => do
    let n ← sql (updateSpend (fun r => r.reservationId = rid) .spent)
    if 0 < n ∧ recordEvent then
      if ← recordSpendEventOn (settlementEvent rid row actualSpentSats source now) then
        pure (.applied (0 < n))
      else pure .eventRejected
    else pure (.applied (0 < n))

def markSpendReservationSpent (reservationId : String) (actualSpentSats : Option ℤ)
    (source : Option String) (recordEvent : Bool) (now : ℤ) : Rail Bool := do
  let rid := trim reservationId
  if rid = "" then pure false else
  sql beginImmediate
  match ← Eff.attempt (markSpentInTx rid actualSpentSats source recordEvent now) with
  | .ok (.applied changed) => do
    sql commit
    pure changed
  | .ok .eventRejected => do
    sql rollback
    pure false
  | .error e => do
    rollbackQuietly
    Eff.throw e

/-- The legacy table's sweep reports every failure; the unified one's is tolerated. -/
def cleanupStaleReservations (maxAgeSeconds now : ℤ) : Rail ℤ := do
  let cutoff ← Eff.checked (checkedI64 (now - maxAgeSeconds))
  let legacy ← sql (statement fun t => do
    let parked ← t.parkedIds
    let stale := fun r : BudgetReservation => r.reservedAt < cutoff ∧ r.reservationId ∉ parked
    pure (t.countLegacy stale, t.flipLegacy stale .released))
  let unified ← sql (Eff.attempt (statement fun t => do
    let parked ← t.parkedIds
    let stale := fun r : SpendReservation =>
      r.category = "rebalance" ∧ r.reservedAt < cutoff ∧ r.reservationId ∉ parked
    pure (t.countSpend stale, t.flipSpend stale .released)))
  match unified with
  | .ok n => pure (legacy + n)
  | .error _ => pure legacy

/-- The blind sweep leaves the categories that stand for a committed on-chain spend. -/
def sweepable (category : Option String) (r : SpendReservation) : Bool :=
  match category with
  | some cat => r.category = toLowercase (trim cat)
  | none => r.category ∉ committedOnchainSpendCategories

def cleanupStaleSpendReservations (maxAgeSeconds : ℤ) (category : Option String) (now : ℤ) :
    Rail ℤ := do
  let cutoff ← Eff.checked (checkedI64 (now - maxAgeSeconds))
  let n ← sql (updateSpend (fun r => r.reservedAt < cutoff ∧ sweepable category r) .released)
  pure n

/-- clear_all_reservations touches the legacy table only. -/
def clearAllReservations : Rail ClearStats := do
  sql beginImmediate
  let result ← Eff.attempt (do
    let stats ← sql (query fun t => (sumI64 t.legacyHolds).map fun total =>
      ClearStats.mk (t.countLegacy fun _ => true) total)
    let _ ← sql (updateLegacy (fun _ => true) .released)
    sql commit
    pure stats)
  match result with
  | .ok stats => pure stats
  | .error e => do
    rollbackQuietly
    Eff.throw e

/-- Unified ledger first, then the row that predates unification. -/
def releaseBudgetReservation (reservationId : String) : Rail Bool := do
  if ← releaseSpendReservation reservationId then pure true else
  let n ← sql (updateLegacy (fun r => r.reservationId = reservationId) .released)
  pure (0 < n)

def markBudgetSpent (reservationId : String) (actualSpent : ℤ) : Rail Bool := do
  if ← markSpendReservationSpent reservationId (some actualSpent) none false 0 then pure true else
  let n ← sql (updateLegacy (fun r => r.reservationId = reservationId) .spent)
  pure (0 < n)

end Rail

end BudgetRail
