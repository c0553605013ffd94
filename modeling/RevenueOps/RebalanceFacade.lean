import RevenueOps.RebalanceEngine

/-! The facade's explicit execution: it owns the history row, the reservation and the accounting,
and runs the engine without a reservation of its own. -/
namespace RebalanceFacade

open FallibleState RustNumber RustText RouteExecutor RebalanceEngine
open BudgetRail (ReserveRequest)

structure FacadeConfig where
  dailyBudgetSats : ℤ
  weeklyBudgetSats : ℤ
  totalCostBudgetWindowHours : ℤ

structure ExecuteOpts where
  rebalanceType : String
  reasonCode : String
  dynamicBudgetOverrideSats : ℤ

inductive RebalanceMode where
  | normal
  | hotProtection
  | structuralDrain
  | manual
  | diagnostic
  deriving DecidableEq, Repr

/-- What a mode implies for the engine: manual skips reservation and accounting. -/
def engineKwargs : RebalanceMode → EngineKwargs
  | .manual => ⟨false, false⟩
  | _ => ⟨true, true⟩

def futilityKey (candidate : RebalanceCandidate) : String :=
  if candidate.toPeerId = "" then candidate.toChannel else candidate.toPeerId

def classifyError [UnicodeCase] (errorMsg : String) : String :=
  let msg := toLowercase errorMsg
  let mentions (needles : List String) := needles.any fun n => contains msg n
  if mentions ["no route", "no_route", "unknown_next_peer", "no path", "no channels"] then
    "no_route"
  else if mentions ["timeout", "timed out", "deadline"] then "timeout"
  else if mentions ["route_over_budget", "budget", "exceeded"] then "budget_exceeded"
  else "other"

def rebalanceBudgetLimit (config : FacadeConfig) (candidate : RebalanceCandidate)
    (opts : ExecuteOpts) : ℤ :=
  let effectiveBudget := config.dailyBudgetSats
  let limit := max effectiveBudget 0
  let limit := if opts.reasonCode = "capex_fallback" then
      if 0 < config.dailyBudgetSats then min candidate.maxBudgetSats limit
      else candidate.maxBudgetSats
    else limit
  if 0 < opts.dynamicBudgetOverrideSats then
    let protectedLimit := min (max opts.dynamicBudgetOverrideSats 0) (max effectiveBudget 0)
    if limit < protectedLimit then protectedLimit else limit
  else limit

/-- Exact for all signs, unlike the engine's rounding. -/
protected def baseToSatsCeil (baseMsat : ℤ) : ℤ :=
  baseMsat / 1000 + if baseMsat % 1000 = 0 then 0 else 1

variable {ω : Type}

def updateRow (deps : EngineDeps ω) (rebalanceId : Option ℤ) (call : ℤ → EngineCall) :
    Engine ω Unit :=
  match rebalanceId with
  | some id => tell deps (call id)
  | none => pure ()

def remainingOf : BudgetBlock → ℤ
  | .refused remaining => remaining
  | .unavailable _ => 0

/-- Close the row of a refused reservation. -/
def refuse (deps : EngineDeps ω) (config : FacadeConfig) (candidate : RebalanceCandidate)
    (limit : ℤ) (rebalanceId : Option ℤ) (block : BudgetBlock) : Engine ω ExecutionResult := do
  let remaining := remainingOf block
  let blocker := if 0 < remaining ∧ remaining < limit then "weekly_budget_sats"
    else "daily_budget_sats"
  tell deps (.setDecision "suppressed" "budget_exhausted" blocker true true)
  updateRow deps rebalanceId fun id => .updateHistory id "failed"
    (some (s!"Unified liquidity budget exhausted: {remaining} sats remaining " ++
      s!"for rebalances after external costs (0 spent + 0 reserved) of total {config.dailyBudgetSats}"))
  pure (failedResult localBudgetBlock (max candidate.amountSats 0))

/-- The refusal, or none when the reservation is granted. -/
def reserve (deps : EngineDeps ω) (config : FacadeConfig) (candidate : RebalanceCandidate)
    (opts : ExecuteOpts) (rowId : ℤ) : Engine ω (Option BudgetBlock) := do
  let now ← ask deps.now
  let windowSecs ← Eff.checked (mulI64 (max config.totalCostBudgetWindowHours 1) 3600)
  let since ← Eff.checked (subI64 (asI64 now) windowSecs)
  let weeklySince ← Eff.checked (subI64 (asI64 now) 604800)
  let request : ReserveRequest :=
    { reservationId := toString rowId
      amountSats := candidate.maxBudgetSats
      category := "rebalance"
      channelId := some candidate.toChannel
      effectiveBudgetSats := some (rebalanceBudgetLimit config candidate opts)
      sinceTimestamp := some since
      weeklyBudgetLimit := some config.weeklyBudgetSats
      weeklySinceTimestamp := some weeklySince }
  askLogged (deps.reserveBudget request) (.reserveBudget request)

/-- Book the settled fee in the history row and in the cost table. -/
def recordSuccessfulRebalanceFee (deps : EngineDeps ω) (rebalanceId : Option ℤ)
    (channelId peerId : String) (amountSats feeMsat : ℤ) : Engine ω ℤ := do
  let feeMsat := max feeMsat 0
  let feeSats := RebalanceFacade.baseToSatsCeil feeMsat
  updateRow deps rebalanceId fun id => .updateHistorySuccess id ⟨feeSats, feeMsat, none, none⟩
  if 0 < feeMsat then do
    let now ← ask deps.now
    tell deps (.recordRebalanceCost ⟨channelId, peerId, feeSats, feeMsat, amountSats, asI64 now⟩)
    pure feeSats
  else pure feeSats

def closeSuccess (deps : EngineDeps ω) (candidate : RebalanceCandidate) (opts : ExecuteOpts)
    (rowId : ℤ) (rebalanceId : Option ℤ) (reservedBudget : Bool) (result : ExecutionResult) :
    Engine ω ExecutionResult := do
  let actualFeeSats ← recordSuccessfulRebalanceFee deps rebalanceId candidate.toChannel
    candidate.toPeerId candidate.amountSats result.feeMsat
  tell deps (.resetFailureCount (futilityKey candidate))
  tell deps (.setDecision "rebalance" "rebalance_completed" opts.reasonCode false false)
  if reservedBudget then tell deps (.markBudgetSpent (toString rowId) actualFeeSats) else pure ()
  pure result

/-- A failure releases the reservation unless its payment is pending under a hash. -/
def closeFailure [UnicodeCase] (deps : EngineDeps ω) (candidate : RebalanceCandidate)
    (opts : ExecuteOpts) (rowId : ℤ) (rebalanceId : Option ℤ) (reservedBudget : Bool)
    (result : ExecutionResult) : Engine ω ExecutionResult := do
  let errorStr := if errorText result ≠ "" then errorText result else "no_routes"
  let failRow := if result.paymentPending then none else rebalanceId
  updateRow deps failRow fun id => .updateHistory id "failed" (some errorStr)
  tell deps (.incrementFailureCount (futilityKey candidate) candidate.maxFeePpm
    candidate.amountSats (classifyError errorStr))
  tell deps (.setDecision "suppressed" "start_job_failed" opts.reasonCode false false)
  updateRow deps failRow fun id => .updateHistory id "failed" (some errorStr)
  let sweepablePending := result.paymentPending ∧ (sweepableHash result).isSome
  if reservedBudget ∧ ¬sweepablePending then tell deps (.releaseReservation (toString rowId))
  else pure ()
  pure { result with error := some errorStr }

/-- Run the engine without a reservation of its own, then close. -/
def runAndClose [UnicodeCase] (deps : EngineDeps ω) (candidate : RebalanceCandidate)
    (opts : ExecuteOpts) (rowId : ℤ) (rebalanceId : Option ℤ) (reservedBudget : Bool) :
    Engine ω ExecutionResult := do
  let result ← executeCandidate deps candidate rowId (engineKwargs .manual)
  if result.success then closeSuccess deps candidate opts rowId rebalanceId reservedBudget result
  else closeFailure deps candidate opts rowId rebalanceId reservedBudget result

/-- EvRebalancer::execute_rebalance. -/
def executeRebalance [UnicodeCase] (deps : EngineDeps ω) (config : FacadeConfig)
    (candidate : RebalanceCandidate) (enforceBudget : Bool) (opts : ExecuteOpts) :
    Engine ω ExecutionResult := do
  let fromChannel := candidate.sourceCandidates.headD ""
  if fromChannel = "" ∨ candidate.toChannel = "" then do
    tell deps (.setDecision "suppressed" "invalid_channel_ids" "validation" true false)
    pure (failedResult "Invalid channel IDs - from_channel or to_channel is empty" 0)
  else do
    let row : HistoryRow :=
      { id := 0
        fromChannel := fromChannel
        toChannel := candidate.toChannel
        amountSats := candidate.amountSats
        maxFeeSats := candidate.maxBudgetSats
        expectedProfitSats := candidate.expectedProfitSats
        status := "pending"
        rebalanceType := opts.rebalanceType
        reasonCode := opts.reasonCode
        paymentHash := none }
    let rowId ← askLogged (deps.insertOrAdoptHistory row) (.insertOrAdoptHistory row)
    let rebalanceId := if 0 < rowId then some rowId else none
    if enforceBudget then do
      let block ← reserve deps config candidate opts rowId
      match block with
      | some block =>
        refuse deps config candidate (rebalanceBudgetLimit config candidate opts) rebalanceId block
      | none => runAndClose deps candidate opts rowId rebalanceId true
    else runAndClose deps candidate opts rowId rebalanceId false

end RebalanceFacade
