import RevenueOps.RebalanceFacade
import RevenueOps.StableSelection

/-! The channel defibrillator: a small shock payment into the channel, from the best funded
source, and from the next one only where the first had no route. -/
namespace Defibrillator

open FallibleState JsonValue RustNumber RustText StableSelection
open RouteExecutor (RpcFailure ExecutionResult parseMsat)
open RebalanceEngine RebalanceFacade

def diagnosticFeeCapCeilingSats : ℤ := 10000
def diagnosticMaxSourceAttempts : ℕ := 3
def shockAmountSats : ℤ := 50000

def sourceRouteFailureMarkers : List String :=
  ["route_pricing_failed", "native_route_invalid", "no_route"]

def shockFeeEnvelope (diagMaxFeeSats dailyBudgetSats : ℤ) : ℤ × ℤ :=
  let maxFeeSats := max 1 (min (min diagMaxFeeSats dailyBudgetSats) diagnosticFeeCapCeilingSats)
  (maxFeeSats, asI64 (asF64 maxFeeSats / asF64 shockAmountSats * 1000000.0).ceil)

def isSourceRouteFailure (error : Option String) : Bool :=
  sourceRouteFailureMarkers.any fun marker => contains (error.getD "") marker

structure DiagnosticConfig extends FacadeConfig where
  minWalletReserve : ℤ
  diagnosticRebalanceMaxFeeSats : ℤ

/-- The facade's own seams; an inbound-fee estimate that overflows has no value. -/
structure FacadeDeps (ω : Type) where
  getFunds : ω → Except RpcFailure Json × ω
  getPeerChannels : ω → Except RpcFailure Json × ω
  getTotalRebalanceFees : ℤ → ω → ℤ × ω
  setChannelProbe : String → String → ω → ω
  estimateInboundFee : String → ω → Option ℤ × ω

structure ChannelBalance where
  spendableSats : ℤ
  peerId : String
  feePpm : ℤ

/-- The report of a shock; a settled one carries its fee. -/
structure ShockResult where
  success : Bool
  shockStatus : String
  message : String
  actualFeeSats : Option ℤ

variable {ω : Type}

section Channels

def baseToSatsFloor (baseMsat : ℤ) : ℤ := baseMsat / 1000

def jsonStr (v : Json) (key : String) : String := ((v.get key) >>= Json.asStr).getD ""
def jsonI64 (v : Json) (key : String) : ℤ := ((v.get key).map parseMsat).getD 0

def jsonArr (v : Json) (key : String) : List Json :=
  match v.get key with
  | some (.arr items) => items
  | _ => []

def isNormal (channel : Json) : Bool := jsonStr channel "state" = "CHANNELD_NORMAL"

/-- Peer and fee of the channel by listpeerchannels; a later entry replaces an earlier one. -/
def peerInfo (listpeerchannels : Json) (scid : String) : Option Json :=
  (jsonArr listpeerchannels "channels").reverse.find? fun ch =>
    isNormal ch && jsonStr ch "short_channel_id" = scid

/-- A channel that is there already takes the new balance in its place. -/
def upsertBalance (channels : List (String × ChannelBalance)) (scid : String)
    (balance : ChannelBalance) : List (String × ChannelBalance) :=
  if scid ∈ channels.map Prod.fst then
    channels.map fun c => if c.1 = scid then (scid, balance) else c
  else channels ++ [(scid, balance)]

def channelBalance (listpeerchannels channel : Json) (scid : String) : ChannelBalance :=
  let info := peerInfo listpeerchannels scid
  let peerId := (info.map fun ch => jsonStr ch "peer_id").filter (· ≠ "")
  { spendableSats := baseToSatsFloor (jsonI64 channel "our_amount_msat")
    peerId := peerId.getD (jsonStr channel "peer_id")
    feePpm := (info.map fun ch => jsonI64 ch "fee_proportional_millionths").getD 0 }

/-- The open channels with their balances, in listfunds order. -/
def balancesOf (listfunds listpeerchannels : Json) : List (String × ChannelBalance) :=
  (jsonArr listfunds "channels").foldl (fun channels channel =>
    let scid := jsonStr channel "short_channel_id"
    if isNormal channel = true ∧ scid ≠ "" then
      upsertBalance channels scid (channelBalance listpeerchannels channel scid)
    else channels) []

def tryChannelsWithBalances (facade : FacadeDeps ω) :
    Engine ω (Option (List (String × ChannelBalance))) := do
  let listfunds ← ask facade.getFunds
  match listfunds with
  | .error _ => pure none
  | .ok listfunds => do
    let listpeerchannels ← ask facade.getPeerChannels
    match listpeerchannels with
    | .error _ => pure none
    | .ok listpeerchannels => pure (some (balancesOf listfunds listpeerchannels))

/-- One retry on an RPC failure, then no channels. -/
def channelsWithBalances (facade : FacadeDeps ω) : Engine ω (List (String × ChannelBalance)) := do
  let channels ← tryChannelsWithBalances facade
  match channels with
  | some channels => pure channels
  | none => do
    let channels ← tryChannelsWithBalances facade
    pure (channels.getD [])

end Channels

section CapitalControls

def sumI64 (start : ℤ) (xs : List ℤ) : Option ℤ := xs.foldlM addI64 start

def totalReserve (listfunds : Json) : Option ℤ := do
  let confirmed := (jsonArr listfunds "outputs").filter fun output =>
    jsonStr output "status" = "confirmed"
  let onchainSats ← sumI64 0 (confirmed.map fun output =>
    baseToSatsFloor (jsonI64 output "amount_msat"))
  let spendable := ((jsonArr listfunds "channels").filter isNormal).map fun channel =>
    baseToSatsFloor (jsonI64 channel "our_amount_msat")
  let channelSpendableSats ← sumI64 0 (spendable.filter fun sats => 0 < sats)
  addI64 onchainSats channelSpendableSats

def reserveHeld (facade : FacadeDeps ω) (config : DiagnosticConfig) : Engine ω Bool := do
  let listfunds ← ask facade.getFunds
  match listfunds with
  | .error _ => pure true
  | .ok listfunds => do
    let reserve ← Eff.checked (totalReserve listfunds)
    pure (config.minWalletReserve ≤ reserve)

def checkCapitalControls (deps : EngineDeps ω) (facade : FacadeDeps ω)
    (config : DiagnosticConfig) : Engine ω Bool := do
  let reserved ← reserveHeld facade config
  if !reserved then pure false
  else do
    let now ← ask deps.now
    let window ← Eff.checked (mulI64 (max config.totalCostBudgetWindowHours 1) 3600)
    let since ← Eff.checked (subI64 (asI64 now) window)
    let spent ← ask (facade.getTotalRebalanceFees since)
    if config.dailyBudgetSats ≤ spent then pure false
    else do
      let weekAgo ← Eff.checked (subI64 (asI64 now) 604800)
      let weekly ← ask (facade.getTotalRebalanceFees weekAgo)
      pure (weekly < config.weeklyBudgetSats)

end CapitalControls

section Shock

/-- Healthy sources besides the target, best funded first; ties keep listfunds order. -/
def rankedSources (channels : List (String × ChannelBalance)) (channelId : String) :
    List (String × ChannelBalance) :=
  (sortByKey (fun c => -c.2.spendableSats)
    (channels.filter fun c => c.1 ≠ channelId ∧ 100000 < c.2.spendableSats)).take
      diagnosticMaxSourceAttempts

def shockCandidate (channelId destPeerId : String) (maxFeeSats maxFeePpm : ℤ)
    (source : String × ChannelBalance) : RebalanceCandidate :=
  { sourceCandidates := [source.1]
    toChannel := channelId
    primarySourcePeerId := source.2.peerId
    toPeerId := destPeerId
    amountSats := shockAmountSats
    maxBudgetSats := maxFeeSats
    maxFeePpm := maxFeePpm
    expectedProfitSats := -50 }

def shockRow (channelId : String) (maxFeeSats : ℤ) (source : String) : HistoryRow :=
  { id := 0
    fromChannel := source
    toChannel := channelId
    amountSats := shockAmountSats
    maxFeeSats := maxFeeSats
    expectedProfitSats := -50
    status := "pending"
    rebalanceType := "diagnostic"
    reasonCode := "defibrillator"
    paymentHash := none }

structure ShockOutcome where
  actualFeeSats : Option ℤ
  shockOk : Bool
  shockPending : Bool
  shockBudgetBlocked : Bool

def judgeShock (result : ExecutionResult) : ShockOutcome :=
  let pending := result.paymentPending && !result.success
  { actualFeeSats := if result.success then
      some (RebalanceFacade.baseToSatsCeil (max result.feeMsat 0)) else none
    shockOk := result.success
    shockPending := pending
    shockBudgetBlocked := !result.success && !pending &&
      contains (errorText result) localBudgetBlock }

/-- Only a failure to find a route goes on to the next source. -/
def triesNext (result : ExecutionResult) : Bool :=
  let outcome := judgeShock result
  !(outcome.shockOk || outcome.shockPending || outcome.shockBudgetBlocked) &&
    isSourceRouteFailure result.error

/-- One shock on its own history row; the engine reserves and accounts. -/
def shock [UnicodeCase] (deps : EngineDeps ω) (candidate : RebalanceCandidate)
    (row : HistoryRow) : Engine ω ExecutionResult := do
  let rebalanceId ← askLogged (deps.insertOrAdoptHistory row) (.insertOrAdoptHistory row)
  let result ← executeCandidate deps candidate rebalanceId (engineKwargs .diagnostic)
  if !result.success ∧ !result.paymentPending ∧ 0 < rebalanceId then
    tell deps (.updateHistory rebalanceId "failed"
      (some (if errorText result ≠ "" then errorText result else "rebalance failed")))
  else pure ()
  pure result

def shockSources [UnicodeCase] (deps : EngineDeps ω) (channelId destPeerId : String)
    (maxFeeSats maxFeePpm : ℤ) :
    List (String × ChannelBalance) → ShockOutcome → Engine ω ShockOutcome
  | [], outcome => pure outcome
  | source :: sources, _ => do
    let result ← shock deps (shockCandidate channelId destPeerId maxFeeSats maxFeePpm source)
      (shockRow channelId maxFeeSats source.1)
    if triesNext result then
      shockSources deps channelId destPeerId maxFeeSats maxFeePpm sources (judgeShock result)
    else pure (judgeShock result)

def shockStatus (outcome : ShockOutcome) : String :=
  if outcome.shockOk then "completed"
  else if outcome.shockPending then "pending"
  else if outcome.shockBudgetBlocked then "blocked"
  else "failed"

/-- EvRebalancer::diagnostic_rebalance. -/
def diagnosticRebalance [UnicodeCase] (deps : EngineDeps ω) (facade : FacadeDeps ω)
    (config : DiagnosticConfig) (channelId : String) : Engine ω ShockResult := do
  Eff.modify fun s =>
    { s with world := facade.setChannelProbe channelId "bounded_low_fee" s.world }
  let channels ← channelsWithBalances facade
  match channels.find? fun c => c.1 = channelId with
  | none => pure ⟨false, "failed", "Channel not found locally", none⟩
  | some (_, destInfo) =>
    let sources := rankedSources channels channelId
    if sources = [] then
      pure ⟨true, "failed",
        "Exploration flag set, but no sources available for active shock.", none⟩
    else do
      let (maxFeeSats, maxFeePpm) := shockFeeEnvelope config.diagnosticRebalanceMaxFeeSats
        config.dailyBudgetSats
      let inboundFee ← ask (facade.estimateInboundFee destInfo.peerId)
      let _ ← Eff.checked inboundFee
      let allowed ← checkCapitalControls deps facade config
      if !allowed then
        pure ⟨true, "blocked", "Zero-Fee flag set, but Active Shock blocked: " ++
          "daily budget exhausted or reserve too low", none⟩
      else do
        let outcome ← shockSources deps channelId destInfo.peerId maxFeeSats maxFeePpm sources
          ⟨none, false, false, false⟩
        let status := shockStatus outcome
        pure ⟨true, status, "Defibrillator active: Zero-Fee flag set + Shock " ++ status,
          outcome.actualFeeSats⟩

end Shock

end Defibrillator
