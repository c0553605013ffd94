import RevenueOps.EngineSeams
import RevenueOps.RustFloat

/-! One execution of the rebalance engine: the policy gate, the budget reservation, the first
attempt, the exclusion retry, the partial-amount ladder, and the bookkeeping that closes it; and
the sweep that resolves what an execution left pending. -/
namespace RebalanceEngine

open FallibleState JsonValue RustNumber RustText RouteExecutor
open BudgetRail (ReserveRequest)
open RustFloat (clampF64)

def localBudgetBlock : String := "local_budget_block"
def zeroBudgetBlocksAutoRebalance : String := "zero_budget_blocks_auto_rebalance"
def engineBusy : String := "engine_busy"
def destInflight : String := "dest_inflight"
def routePricingFailedPrefix : String := "route_pricing_failed: "

/-- The halving loop of native_partial_amounts; `fuel` bounds the halvings. -/
def halvings (original minAmount : ℤ) : ℕ → ℤ → List ℤ → List ℤ
  | 0, _, amounts => amounts
  | fuel + 1, current, amounts =>
    if minAmount ≤ current ∧ amounts.length < 6 then
      let amounts :=
        if current < original ∧ current ∉ amounts then amounts ++ [current] else amounts
      let next := current.tdiv 2
      if next = current then amounts else halvings original minAmount fuel next amounts
    else amounts

/-- Descending partial-fill amounts; an i64 has at most 64 halvings. -/
def nativePartialAmounts (amountSats : ℤ) : List ℤ :=
  let original := amountSats
  if original ≤ 0 then []
  else
    let minAmount := min (original - 1) (max 1000 (min 5000 (original.tdiv 2)))
    if minAmount ≤ 0 then []
    else
      let amounts := halvings original minAmount 64 (original.tdiv 2) []
      let amounts := if minAmount < original ∧ minAmount ∉ amounts then amounts ++ [minAmount]
        else amounts
      amounts.take 7

/-- The raw budget, relaxed by a probability-weighted bonus. -/
def probabilityAdjustedBudget (pairBudgetSats probabilityPpm : ℤ) (bonusRate : Float) : ℤ :=
  if bonusRate ≤ 0.0 ∨ probabilityPpm ≤ 0 then pairBudgetSats
  else
    let clamped := clampF64 (asF64 probabilityPpm / 1000000.0) 0.0 1.0
    asI64 (asF64 pairBudgetSats * (1.0 + clamped * bonusRate))

/-- The budget, bounded by the ppm cap on the amount when the cap is on. -/
def perAttemptCeiling (probAdjustedBudgetSats amountSats pairFeeCapPpm : ℤ) : Option ℤ :=
  let budget := max probAdjustedBudgetSats 0
  if pairFeeCapPpm ≤ 0 ∨ amountSats ≤ 0 then some budget
  else do
    let product ← mulI64 amountSats pairFeeCapPpm
    let rounded ← addI64 product 999999
    pure (min budget (rounded.tdiv 1000000))

/-- max(1, ceil(a * b / c)), through an i128 intermediate and saturating. -/
def scaledBudgetCeil (originalBudget amount originalAmount : ℤ) : ℤ :=
  let ceil := (originalBudget * amount + originalAmount - 1).tdiv originalAmount
  max (if InI64 ceil then ceil else 9223372036854775807) 1

def failedResult (error : String) (amountSats : ℤ) : ExecutionResult :=
  { success := false
    attempts := 0
    feeSats := 0
    feeMsat := 0
    feePpm := 0
    hops := 0
    parts := 1
    error := some error
    amountSats := amountSats
    paymentPending := false
    paymentHash := none
    excludedChannels := []
    routeType := "native"
    failureData := .obj [] }

def errorText (r : ExecutionResult) : String := r.error.getD ""

def isBudgetBlock (r : ExecutionResult) : Bool :=
  if r.success then false
  else startsWith (errorText r) localBudgetBlock || startsWith (errorText r) "zero_budget_blocks"

def failureDataMap : Json → JsonMap
  | .obj members => members
  | _ => []

def setdefault (m : JsonMap) (k : String) (v : Json) : JsonMap :=
  if (m.lookup k).isSome then m else Json.insertMember m k v

variable {ω : Type}

def ensureOurId (deps : EngineDeps ω) : Engine ω String := do
  let cached ← Eff.read EngineState.ourId
  if cached = "" then do
    let reply ← ask deps.getinfoId
    match reply with
    | .ok id => do
      Eff.modify fun s => { s with ourId := trim id }
      pure (trim id)
    | .error _ => pure cached
  else pure cached

def pairCtx (deps : EngineDeps ω) (pair : PairCandidate) (ourId : String) : PlannedPairCtx :=
  { ourNodeId := ourId
    sourceChannelId := pair.sourceChannelId
    destChannelId := pair.destChannelId
    sourcePeerId := pair.sourcePeerId
    destPeerId := pair.destPeerId
    amountSats := pair.amountSats
    layerNames := deps.config.askreneLayerNames
    invoiceFinalCltv := deps.config.invoiceFinalCltv }

/-- The stored per-attempt ceiling is the fee envelope when it is there. -/
def pairMaxFeeSats (pair : PairCandidate) : ℤ := pair.effectiveBudgetSats.getD pair.pairBudgetSats

/-- The policy of each named peer allows its side of the pair; a broken source does not. -/
def checkPolicies (getPolicy : String → ω → Except String PeerPolicy × ω) :
    List (String × String × List String) → Engine ω (Bool × String)
  | [] => pure (true, "policy allows pair")
  | (peerId, side, forbidden) :: checks =>
    if peerId = "" then checkPolicies getPolicy checks
    else do
      let reply ← ask (getPolicy peerId)
      match reply with
      | .error e => pure (false, s!"policy check failed (fail closed): {e}")
      | .ok policy =>
        let mode := if policy.rebalanceMode = "" then "enabled" else policy.rebalanceMode
        if policy.strategy = "passive" then pure (false, s!"{side} peer policy is passive")
        else if mode ∈ forbidden then
          pure (false, s!"{side} rebalance_mode={mode} forbids this direction")
        else checkPolicies getPolicy checks

def pairPolicyAllowed (deps : EngineDeps ω) (pair : PairCandidate) : Engine ω (Bool × String) :=
  match deps.policy with
  | none => pure (false, "policy manager unavailable (fail closed)")
  | some getPolicy =>
    checkPolicies getPolicy
      [(pair.sourcePeerId, "source", ["disabled", "sink_only"]),
        (pair.destPeerId, "dest", ["disabled", "source_only"])]

/-- One pricing call on a fresh router; none when no router is available. -/
def routePairFresh (deps : EngineDeps ω) (pair : PairCandidate) (exclude : List String) :
    Engine ω (Option (Except RpcFailure RouteResult)) := do
  let available ← ask deps.beginCycle
  if available then do
    let ourId ← ensureOurId deps
    let priced ← ask (deps.pricePair (pairCtx deps pair ourId) exclude)
    pure (some priced)
  else pure none

def routeError (r : RouteResult) : String :=
  match r.error with
  | some e => if e ≠ "" then e else "no_route"
  | none => "no_route"

section Budget

def globalBudgetLimit (deps : EngineDeps ω) : ℤ := max deps.config.dailyBudgetSats 0

def blockedResult (effectiveBudget amountSats : ℤ) : BudgetBlock → ExecutionResult
  | .refused remaining =>
    failedResult
      (s!"{localBudgetBlock}: {remaining} sats remaining of {effectiveBudget} unified budget")
      amountSats
  | .unavailable msg => failedResult (s!"{localBudgetBlock}: {msg}") amountSats

/-- Whether the fee envelope is reserved, and the result that blocks the execution otherwise. -/
def reserveExecutionBudget (deps : EngineDeps ω) (pair : PairCandidate) (reservationId : String) :
    Engine ω (Bool × Option ExecutionResult) := do
  let maxFeeSats := max (pairMaxFeeSats pair) 0
  let effectiveBudget := globalBudgetLimit deps
  let amountSats := max pair.amountSats 0
  if effectiveBudget ≤ 0 then
    if maxFeeSats ≤ 0 ∧ deps.config.allowZeroCostAutoRebalanceWhenBudgetZero then
      pure (false, none)
    else pure (false, some (failedResult zeroBudgetBlocksAutoRebalance amountSats))
  else if maxFeeSats ≤ 0 then pure (false, none)
  else do
    let now ← ask deps.now
    let windowSecs ← Eff.checked (mulI64 (max deps.config.totalCostBudgetWindowHours 1) 3600)
    let since ← Eff.checked (subI64 (asI64 now) windowSecs)
    let weeklySince ← Eff.checked (subI64 (asI64 now) 604800)
    let request : ReserveRequest :=
      { reservationId := reservationId
        amountSats := maxFeeSats
        category := "rebalance"
        channelId := some pair.destChannelId
        effectiveBudgetSats := some effectiveBudget
        sinceTimestamp := some since
        weeklyBudgetLimit := deps.config.weeklyBudgetSats
        weeklySinceTimestamp := some weeklySince }
    let block ← askLogged (deps.reserveBudget request) (.reserveBudget request)
    match block with
    | none => pure (true, none)
    | some block => pure (false, some (blockedResult effectiveBudget amountSats block))

/-- The hash under which a pending payment can be swept. -/
def sweepableHash (r : ExecutionResult) : Option String := r.paymentHash.filter (· ≠ "")

/-- Spend on success, hold a sweepable pending payment, release everything else. -/
def finishExecutionBudget (deps : EngineDeps ω) (reservationId : String) (reservedBudget : Bool)
    (result : ExecutionResult) : Engine ω Unit :=
  if !reservedBudget then pure ()
  else if result.paymentPending then
    if (sweepableHash result).isSome then pure ()
    else tell deps (.releaseReservation reservationId)
  else if result.success then tell deps (.markBudgetSpent reservationId (max result.feeSats 0))
  else tell deps (.releaseReservation reservationId)

end Budget

section History

/-- The id of a fresh pending row; none when the store gave no row. -/
def recordRebalancePending (deps : EngineDeps ω) (pair : PairCandidate) :
    Engine ω (Option ℤ) := do
  let row : HistoryRow :=
    { id := 0
      fromChannel := pair.sourceChannelId
      toChannel := pair.destChannelId
      amountSats := pair.amountSats
      maxFeeSats := max pair.pairBudgetSats 0
      expectedProfitSats := 0
      status := "pending"
      rebalanceType := "normal"
      reasonCode := if pair.reasonCode = "" then "ev_positive" else pair.reasonCode
      paymentHash := none }
  let id ← askLogged (deps.insertOrAdoptHistory row) (.insertOrAdoptHistory row)
  pure (if 0 < id then some id else none)

/-- The settled fee goes to the cost table when the caller accounts for it. -/
def recordCost (deps : EngineDeps ω) (result : ExecutionResult) (pair : PairCandidate)
    (amountSats : ℤ) : Engine ω Unit := do
  let fromSats ← Eff.checked (if result.feeMsat ≤ 0 then mulI64 (max result.feeSats 0) 1000
    else some result.feeMsat)
  if 0 < fromSats then do
    let costSats ← Eff.checked (baseToSatsCeil fromSats)
    let now ← ask deps.now
    tell deps (.recordRebalanceCost
      { channelId := pair.destChannelId
        peerId := pair.destPeerId
        costSats := costSats
        costMsat := fromSats
        amountSats := max amountSats 0
        timestamp := asI64 now })
  else pure ()

def recordSuccess (deps : EngineDeps ω) (id : ℤ) (result : ExecutionResult) (pair : PairCandidate)
    (accountCosts : Bool) : Engine ω Unit := do
  let postLocalRatio := if 0 < pair.destCapacitySats then
      some (clampF64 (pair.destLocalRatio + asF64 pair.amountSats / asF64 pair.destCapacitySats)
        0.0 1.0)
    else none
  let amountSats := if 0 < result.amountSats then result.amountSats else pair.amountSats
  tell deps (.updateHistorySuccess id
    { actualFeeSats := max result.feeSats 0
      actualFeeMsat := max result.feeMsat 0
      postLocalRatio := postLocalRatio
      amountSats := some (max amountSats 0) })
  if accountCosts then recordCost deps result pair amountSats else pure ()

/-- Close the history row; a sweepable pending payment is parked for the sweep. -/
def recordRebalanceResult (deps : EngineDeps ω) (rebalanceId : Option ℤ)
    (result : ExecutionResult) (pair : PairCandidate) (accountCosts : Bool) : Engine ω Unit :=
  match rebalanceId with
  | none => pure ()
  | some id =>
    if result.success then recordSuccess deps id result pair accountCosts
    else if result.paymentPending then
      match sweepableHash result with
      | some hash => tell deps (.updateHistoryPendingSettlement id (errorText result) hash)
      | none =>
        let message := errorText result ++
          " (payment pending but missing payment_hash; not sweepable)"
        tell deps (.updateHistory id "failed" (some (trim message)))
    else
      let status := if isBudgetBlock result then "skipped" else "failed"
      tell deps (.updateHistory id status (some (errorText result)))

end History

section Attempts

def executionRequest (deps : EngineDeps ω) (pair : PairCandidate) : Engine ω ExecuteRequest := do
  let ourId ← ensureOurId deps
  let now ← ask deps.now
  pure
    { route := pair.route
      amountSats := pair.amountSats
      sourceChannelId := pair.sourceChannelId
      destChannelId := pair.destChannelId
      maxFeeSats := pairMaxFeeSats pair
      ourId := ourId
      nowMs := asI64 (now * 1000.0) }

def executeRequest (deps : EngineDeps ω) (pair : PairCandidate) : Engine ω ExecutionResult := do
  let request ← executionRequest deps pair
  askLogged (deps.execute request) (.execute request)

/-- The trimmed, distinct, non-empty entries in order. -/
def distinctTrimmed (entries : List String) : List String :=
  entries.foldl (fun acc entry =>
    let value := trim entry
    if value ≠ "" ∧ value ∉ acc then acc ++ [value] else acc) []

/-- The first result with a note on why its retry did not run. -/
def annotateRetry (first : ExecutionResult) (note : String) (data : JsonMap) :
    Option ExecutionResult := do
  let attempts ← addI64 (max first.attempts 1) 1
  pure { first with
    error := some (errorText first ++ note)
    failureData := .obj data
    attempts := attempts }

def textArray (xs : List String) : Json := .arr (xs.map Json.str)

def mergeRetry (first retry : ExecutionResult) (exclusions : List String) (routeCostSats : ℤ) :
    Option ExecutionResult := do
  let attempts ← addI64 (max first.attempts 1) (max retry.attempts 1)
  let merged := failureDataMap retry.failureData
  let merged := setdefault merged "previous_failure" (.str (errorText first))
  let merged := setdefault merged "retry_excluded_channels" (textArray exclusions)
  let merged := setdefault merged "retry_route_cost_sats" (.int routeCostSats)
  pure { retry with
    attempts := attempts
    failureData := .obj merged
    excludedChannels := if retry.success then retry.excludedChannels
      else exclusions.foldl (fun acc e => if e ∈ acc then acc else acc ++ [e])
        retry.excludedChannels }

/-- Retry once around the excluded segments; never on top of a pending payment. -/
def retryWithExclusions (deps : EngineDeps ω) (pair : PairCandidate) (first : ExecutionResult) :
    Engine ω (ExecutionResult × PairCandidate) :=
  if first.success ∨ first.paymentPending then pure (first, pair)
  else
    let exclusions := distinctTrimmed first.excludedChannels
    if exclusions = [] then pure (first, pair)
    else do
      let retryData := Json.insertMember (failureDataMap first.failureData)
        "retry_excluded_channels" (textArray exclusions)
      let priced ← routePairFresh deps pair exclusions
      match priced with
      | none => pure (first, pair)
      | some (.error exc) => do
        let result ← Eff.checked (annotateRetry first s!"; retry_pricing_failed: {exc.message}"
          (Json.insertMember retryData "retry_error" (.str exc.message)))
        pure (result, pair)
      | some (.ok route) =>
        if !route.success then do
          let detail := routeError route
          let result ← Eff.checked (annotateRetry first s!"; retry_no_route: {detail}"
            (Json.insertMember retryData "retry_error" (.str detail)))
          pure (result, pair)
        else do
          let adjusted := probabilityAdjustedBudget pair.pairBudgetSats route.probabilityPpm
            deps.config.capexProbabilityBudgetBonus
          let effectiveBudget ← Eff.checked (perAttemptCeiling adjusted pair.amountSats
            deps.config.pairFeeCapPpm)
          if effectiveBudget < route.routeCostSats then do
            let result ← Eff.checked (annotateRetry first
              s!"; retry_route_over_budget: {route.routeCostSats} > {effectiveBudget}"
              (Json.insertMember retryData "retry_error" (.str "route_over_budget")))
            pure (result, pair)
          else do
            let pair := { pair with
              route := route.route
              routeCostSats := route.routeCostSats }
            let retry ← executeRequest deps pair
            let result ← Eff.checked (mergeRetry first retry exclusions route.routeCostSats)
            pure (result, pair)

def failureAllowsPartial [UnicodeCase] (result : ExecutionResult) : Bool :=
  if result.success ∨ result.routeType ≠ "native" then false
  else
    let cls := toLowercase (((result.failureData.get "failure_class") >>= Json.asStr).getD "")
    if cls = "liquidity" then true
    else contains (toLowercase (errorText result)) "temporary_channel_failure"

inductive LadderStep where
  | unavailable
  | failed (pair : PairCandidate) (attempt : Json) (totalAttempts : ℤ)
  | finished (result : ExecutionResult) (pair : PairCandidate)

def partialAttempt (amountSats : ℤ) (status : String) : JsonMap :=
  [("amount_sats", .int amountSats), ("status", .str status)]

/-- The trail of a partial fill, added to the failure data of its result. -/
def partialFill (prior retry : ExecutionResult) (fill : JsonMap) (totalAttempts : ℤ) :
    ExecutionResult :=
  let merged := setdefault (failureDataMap retry.failureData) "previous_failure"
    (.str (errorText prior))
  { retry with
    attempts := totalAttempts
    failureData := .obj (Json.insertMember merged "partial_fill" (.obj fill)) }

/-- The proportional share of the budget, at least one sat. -/
def rungBudget (originalAmount originalBudget amountSats : ℤ) : ℤ :=
  if 0 < originalAmount ∧ 0 < originalBudget then
    scaledBudgetCeil originalBudget amountSats originalAmount
  else originalBudget

/-- The fee envelope of a rung under the probability that the router reports. -/
def rungCeiling (config : EngineConfig) (originalAmount originalBudget amountSats
    probabilityPpm : ℤ) : Option ℤ :=
  perAttemptCeiling
    (probabilityAdjustedBudget (rungBudget originalAmount originalBudget amountSats) probabilityPpm
      config.capexProbabilityBudgetBonus) amountSats config.pairFeeCapPpm

/-- The result of an executed rung: a success or a pending payment ends the ladder. -/
def judgeRung (prior retry : ExecutionResult) (originalAmount amountSats routeCostSats : ℤ)
    (partialAttempts : List Json) (totalAttempts : ℤ) (pair : PairCandidate) : LadderStep :=
  if retry.success then
    let filled := if retry.amountSats ≤ 0 then amountSats else retry.amountSats
    .finished
      (partialFill prior { retry with amountSats := filled }
        [("attempts", .arr (partialAttempts ++ [.obj (partialAttempt amountSats "success")])),
          ("executed_amount_sats", .int filled), ("planned_amount_sats", .int originalAmount),
          ("route_cost_sats", .int routeCostSats)] totalAttempts) pair
  else if retry.paymentPending then
    .finished
      (partialFill prior retry
        [("attempts",
          .arr (partialAttempts ++ [.obj (partialAttempt amountSats "payment_pending")])),
          ("executed_amount_sats", .int 0), ("planned_amount_sats", .int originalAmount)]
        totalAttempts) pair
  else
    .failed pair
      (.obj [("amount_sats", .int amountSats), ("error", .str (errorText retry)),
        ("excluded_channels", textArray retry.excludedChannels),
        ("status", .str "execution_failed")]) totalAttempts

def ladderRung (deps : EngineDeps ω) (prior : ExecutionResult)
    (originalAmount originalBudget amountSats : ℤ) (partialAttempts : List Json)
    (totalAttempts : ℤ) (pair : PairCandidate) : Engine ω LadderStep := do
  let scaledBudget := rungBudget originalAmount originalBudget amountSats
  let pair := { pair with
    amountSats := amountSats
    pairBudgetSats := scaledBudget }
  let priced ← routePairFresh deps pair []
  match priced with
  | none => pure .unavailable
  | some (.error exc) =>
    pure (.failed pair (.obj [("amount_sats", .int amountSats), ("error", .str exc.message),
      ("status", .str "pricing_error")]) totalAttempts)
  | some (.ok route) =>
    if !route.success then
      pure (.failed pair
        (.obj [("amount_sats", .int amountSats), ("error", .str (routeError route)),
        ("status", .str "no_route")]) totalAttempts)
    else do
      let effectiveBudget ← Eff.checked (rungCeiling deps.config originalAmount originalBudget
        amountSats route.probabilityPpm)
      let pair := { pair with effectiveBudgetSats := some effectiveBudget }
      if effectiveBudget < route.routeCostSats then
        pure (.failed pair (.obj [("amount_sats", .int amountSats),
          ("effective_budget_sats", .int effectiveBudget),
          ("route_cost_sats", .int route.routeCostSats),
          ("status", .str "route_over_budget")]) totalAttempts)
      else do
        let pair := { pair with
          route := route.route
          routeCostSats := route.routeCostSats }
        let retry ← executeRequest deps pair
        let totalAttempts ← Eff.checked (addI64 totalAttempts (max retry.attempts 1))
        pure (judgeRung prior retry originalAmount amountSats route.routeCostSats partialAttempts
          totalAttempts pair)

/-- What the ladder led to: a result that ends the execution, or the trail of its attempts. -/
inductive LadderOutcome where
  | finished (result : ExecutionResult) (pair : PairCandidate)
  | exhausted (partialAttempts : List Json) (totalAttempts : ℤ)

def ladder (deps : EngineDeps ω) (prior : ExecutionResult) (originalAmount originalBudget : ℤ) :
    List ℤ → List Json → ℤ → PairCandidate → Engine ω LadderOutcome
  | [], partialAttempts, totalAttempts, _ => pure (.exhausted partialAttempts totalAttempts)
  | amountSats :: amounts, partialAttempts, totalAttempts, pair => do
    let step ← ladderRung deps prior originalAmount originalBudget amountSats partialAttempts
      totalAttempts pair
    match step with
    | .unavailable => pure (.exhausted partialAttempts totalAttempts)
    | .finished result pair => pure (.finished result pair)
    | .failed pair attempt totalAttempts =>
      ladder deps prior originalAmount originalBudget amounts (partialAttempts ++ [attempt])
        totalAttempts pair

/-- The prior result with the trail of an exhausted ladder. -/
def exhaustedResult (prior : ExecutionResult) (originalAmount : ℤ) (partialAttempts : List Json)
    (totalAttempts : ℤ) : ExecutionResult :=
  let data := Json.insertMember (failureDataMap prior.failureData) "partial_fill"
    (.obj [("attempts", .arr partialAttempts), ("executed_amount_sats", .int 0),
      ("planned_amount_sats", .int originalAmount)])
  let error := match partialAttempts.getLast? with
    | some last =>
      some (errorText prior ++ "; partial_retry_failed: " ++
        ((last.get "status" >>= Json.asStr).getD ""))
    | none => prior.error
  { prior with
    failureData := .obj data
    attempts := totalAttempts
    error := error }

/-- The halving ladder after a liquidity failure; an exhausted ladder restores the pair. -/
def retryWithPartialAmounts [UnicodeCase] (deps : EngineDeps ω) (pair : PairCandidate)
    (prior : ExecutionResult) : Engine ω (ExecutionResult × PairCandidate) :=
  if prior.paymentPending then pure (prior, pair)
  else if !failureAllowsPartial prior then pure (prior, pair)
  else do
    let outcome ← ladder deps prior pair.amountSats pair.pairBudgetSats
      (nativePartialAmounts pair.amountSats) [] (max prior.attempts 1) pair
    match outcome with
    | .finished result pair => pure (result, pair)
    | .exhausted partialAttempts totalAttempts =>
      pure (exhaustedResult prior pair.amountSats partialAttempts totalAttempts, pair)

end Attempts

section Execution

/-- Export the segment observations after a failure, when there are any. -/
def pushSegmentObservationSnapshot (deps : EngineDeps ω) : Engine ω Unit := do
  let observer ← ensureOurId deps
  if observer = "" then pure ()
  else do
    let now ← ask deps.now
    let some? ← ask (deps.hasObservations (asI64 now))
    if some? then tell deps (.datastoreExport (trim observer) (asI64 now)) else pure ()

def registerInflight (dest : String) : Engine ω Unit :=
  Eff.modify fun s => if dest = "" then s else { s with inflight := s.inflight ++ [dest] }

def unregisterInflight (dest : String) : Engine ω Unit :=
  Eff.modify fun s => { s with inflight := s.inflight.erase dest }

def historyId (deps : EngineDeps ω) (pair : PairCandidate) (rebalanceId : Option ℤ) :
    Engine ω (Option ℤ) :=
  match rebalanceId with
  | some id => pure (some id)
  | none => recordRebalancePending deps pair

/-- The id of the history row as text, or a nonce where there is no row. -/
def reservationIdOf (pair : PairCandidate) (rebalanceId : Option ℤ) : Engine ω String :=
  match rebalanceId with
  | some id => pure (toString id)
  | none => do
    let nonce ← Eff.read EngineState.reservationNonce
    Eff.modify fun s => { s with reservationNonce := s.reservationNonce + 1 }
    pure s!"v2-{nonce}-{pair.sourceChannelId}-{pair.destChannelId}"

/-- The attempts, and the bookkeeping that closes them. -/
def payAndClose [UnicodeCase] (deps : EngineDeps ω) (pair : PairCandidate)
    (reservationId : String) (reservedBudget accountCosts : Bool) (rebalanceId : Option ℤ) :
    Engine ω ExecutionResult := do
  let result ← executeRequest deps pair
  let (result, pair) ← retryWithExclusions deps pair result
  let (result, pair) ← retryWithPartialAmounts deps pair result
  recordRebalanceResult deps rebalanceId result pair accountCosts
  finishExecutionBudget deps reservationId reservedBudget result
  if !result.success then pushSegmentObservationSnapshot deps else pure ()
  pure result

/-- Reserve when asked to, then pay; a blocked reservation is the result. -/
def reserveAndPay [UnicodeCase] (deps : EngineDeps ω) (pair : PairCandidate)
    (reservationId : String) (reserveBudget accountCosts : Bool) (rebalanceId : Option ℤ) :
    Engine ω ExecutionResult :=
  if reserveBudget then do
    let (reserved, block) ← reserveExecutionBudget deps pair reservationId
    match block with
    | some blockResult => do
      recordRebalanceResult deps rebalanceId blockResult pair false
      pure blockResult
    | none => payAndClose deps pair reservationId reserved accountCosts rebalanceId
  else payAndClose deps pair reservationId false accountCosts rebalanceId

def executePair [UnicodeCase] (deps : EngineDeps ω) (pair : PairCandidate)
    (reserveBudget accountCosts : Bool) (rebalanceId : Option ℤ) : Engine ω ExecutionResult := do
  let (policyOk, policyReason) ← pairPolicyAllowed deps pair
  if !policyOk then
    pure (failedResult (s!"policy_blocked: {policyReason}") (max pair.amountSats 0))
  else do
    let rebalanceId ← historyId deps pair rebalanceId
    let reservationId ← reservationIdOf pair rebalanceId
    registerInflight pair.destChannelId
    let result ← reserveAndPay deps pair reservationId reserveBudget accountCosts rebalanceId
    unregisterInflight pair.destChannelId
    pure result

/-- The candidate fields that the engine and the facade read. -/
structure RebalanceCandidate where
  sourceCandidates : List String
  toChannel : String
  primarySourcePeerId : String
  toPeerId : String
  amountSats : ℤ
  maxBudgetSats : ℤ
  maxFeePpm : ℤ
  expectedProfitSats : ℤ

structure EngineKwargs where
  reserveBudget : Bool
  accountCosts : Bool

def explicitPair (candidate : RebalanceCandidate) : PairCandidate :=
  { sourceChannelId := candidate.sourceCandidates.headD ""
    destChannelId := candidate.toChannel
    sourcePeerId := candidate.primarySourcePeerId
    destPeerId := candidate.toPeerId
    amountSats := candidate.amountSats
    pairBudgetSats := candidate.maxBudgetSats
    effectiveBudgetSats := none
    routeCostSats := candidate.maxBudgetSats
    route := []
    reasonCode := "manual"
    destCapacitySats := 0
    destLocalRatio := 0.0 }

def executeCandidateLocked [UnicodeCase] (deps : EngineDeps ω) (candidate : RebalanceCandidate)
    (rebalanceId : Option ℤ) (kw : EngineKwargs) : Engine ω ExecutionResult := do
  let pair := explicitPair candidate
  let inflight ← Eff.read EngineState.inflight
  if pair.sourceChannelId = "" ∨ pair.destChannelId = "" then
    pure (failedResult "invalid_channel_ids" 0)
  else if pair.sourcePeerId = "" ∨ pair.destPeerId = "" then
    pure (failedResult "missing_peer_ids" 0)
  else if pair.amountSats ≤ 0 then pure (failedResult "invalid_amount" 0)
  else if pair.destChannelId ∈ inflight then pure (failedResult destInflight pair.amountSats)
  else do
    let priced ← routePairFresh deps pair []
    match priced with
    | none => pure (failedResult "router_unavailable" pair.amountSats)
    | some (.error exc) =>
      pure (failedResult (routePricingFailedPrefix ++ exc.message) pair.amountSats)
    | some (.ok route) =>
      if !route.success then
        pure (failedResult (routePricingFailedPrefix ++ routeError route ++ " (market)")
          pair.amountSats)
      else
        executePair deps { pair with
          routeCostSats := route.routeCostSats
          route := route.route } kw.reserveBudget kw.accountCosts rebalanceId

/-- RebalanceEngine::execute_candidate; an id that is not positive stands for no row. -/
def executeCandidate [UnicodeCase] (deps : EngineDeps ω) (candidate : RebalanceCandidate)
    (rebalanceId : ℤ) (kw : EngineKwargs) : Engine ω ExecutionResult := do
  let free ← ask deps.tryLock
  if !free then pure (failedResult engineBusy (max candidate.amountSats 0))
  else
    executeCandidateLocked deps candidate (if 0 < rebalanceId then some rebalanceId else none) kw

end Execution

section Sweep

/-- Value indexing: a missing member reads as null. -/
def member (j : Json) (k : String) : Json := (j.get k).getD .null

def items : Json → List Json
  | .arr js => js
  | _ => []

def status (payment : Json) : String := ((member payment "status").asStr).getD ""

def paymentsOf (response : Json) : List Json :=
  (items (member response "payments")).filter Json.isObject

/-- The peer of each channel, by its SCID or its local alias. -/
def scidPeerMap (response : Except RpcFailure Json) : List (String × String) :=
  match response with
  | .error _ => []
  | .ok response =>
    (items (member response "channels")).foldl (fun mapping channel =>
      let named := ((member channel "short_channel_id").asStr).filter (· ≠ "")
      let aliased := ((member (member channel "alias") "local").asStr).filter (· ≠ "")
      match named.or aliased with
      | none => mapping
      | some scid =>
        if scid ∈ mapping.map Prod.fst then mapping
        else mapping ++ [(scid, ((member channel "peer_id").asStr).getD "")]) []

/-- The map is read at most once per sweep. -/
def peerMapOnce (deps : EngineDeps ω) (peerMap : Option (List (String × String))) :
    Engine ω (List (String × String)) :=
  match peerMap with
  | some mapping => pure mapping
  | none => do
    let response ← ask deps.listpeerchannelsFull
    pure (scidPeerMap response)

def recordSettledCost (deps : EngineDeps ω) (row : HistoryRow)
    (feeMsat feeSats settledAmountSats : ℤ) (peerMap : Option (List (String × String))) :
    Engine ω (Option (List (String × String))) :=
  if 0 < feeMsat then do
    let mapping ← peerMapOnce deps peerMap
    let now ← ask deps.now
    tell deps (.recordRebalanceCost
      { channelId := row.toChannel
        peerId := ((mapping.find? fun m => m.1 = row.toChannel).map Prod.snd).getD ""
        costSats := feeSats
        costMsat := feeMsat
        amountSats := settledAmountSats
        timestamp := asI64 now })
    pure (some mapping)
  else pure peerMap

/-- Book a completed payment and spend its reservation. -/
def settleRow (deps : EngineDeps ω) (row : HistoryRow) (settled : Json)
    (peerMap : Option (List (String × String))) :
    Engine ω (Bool × Option (List (String × String))) := do
  let amountMsat := parseMsat (member settled "amount_msat")
  let sentMsat := parseMsat (member settled "amount_sent_msat")
  let difference ← Eff.checked (subI64 sentMsat amountMsat)
  let feeMsat := max difference 0
  let feeSats ← Eff.checked (baseToSatsCeil feeMsat)
  let filled := (max amountMsat 0).tdiv 1000
  let settledAmountSats := if filled ≤ 0 then row.amountSats else filled
  tell deps (.updateHistorySuccess row.id
    { actualFeeSats := feeSats
      actualFeeMsat := feeMsat
      postLocalRatio := none
      amountSats := if 0 < settledAmountSats then some settledAmountSats else none })
  let peerMap ← recordSettledCost deps row feeMsat feeSats settledAmountSats peerMap
  tell deps (.markBudgetSpent (toString row.id) feeSats)
  pure (true, peerMap)

/-- Resolve one parked row once the node reports a final state. -/
def reconcilePendingRow (deps : EngineDeps ω) (row : HistoryRow)
    (peerMap : Option (List (String × String))) :
    Engine ω (Bool × Option (List (String × String))) :=
  let paymentHash := row.paymentHash.getD ""
  if row.id ≤ 0 ∨ paymentHash = "" then pure (false, peerMap)
  else do
    let reply ← askLogged (deps.listsendpays paymentHash) (.listsendpays paymentHash)
    match reply with
    | .error _ => pure (false, peerMap)
    | .ok response =>
      let payments := paymentsOf response
      if "pending" ∈ payments.map status then pure (false, peerMap)
      else
        match payments.find? fun p => (member p "status").asStr = some "complete" with
        | some settled => settleRow deps row settled peerMap
        | none => do
          tell deps (.updateHistory row.id "failed" (some "payment_pending_resolved_failed"))
          tell deps (.releaseReservation (toString row.id))
          tell deps (.delpay paymentHash "failed")
          pure (true, peerMap)

def reconcileRows (deps : EngineDeps ω) : List HistoryRow → Option (List (String × String)) → ℕ →
    Engine ω ℕ
  | [], _, resolved => pure resolved
  | row :: rows, peerMap, resolved => do
    let (done, peerMap) ← reconcilePendingRow deps row peerMap
    reconcileRows deps rows peerMap (if done then resolved + 1 else resolved)

def reconcilePendingSettlements (deps : EngineDeps ω) : Engine ω ℕ := do
  let rows ← ask deps.pendingSettlementRows
  reconcileRows deps rows none 0

end Sweep

end RebalanceEngine
