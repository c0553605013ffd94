import RevenueOps.Defibrillator

/-! The operator's override: capital controls only warn, there is no reservation, and the facade
books the fee itself. -/
namespace ManualRebalance

open FallibleState JsonValue RustNumber RustText
open RouteExecutor (ExecutionResult)
open RebalanceEngine RebalanceFacade Defibrillator

structure ManualConfig extends DiagnosticConfig where
  rebalanceMaxAmount : ℤ

variable {ω : Type}

def xForm (scid : String) : String :=
  String.ofList (scid.toList.map fun c => if c = ':' then 'x' else c)

def cappedAmount (config : ManualConfig) (amountSats : ℤ) : ℤ :=
  if 0 < config.rebalanceMaxAmount ∧ config.rebalanceMaxAmount < amountSats then
    config.rebalanceMaxAmount
  else amountSats

/-- A budget from the estimated spread, where the operator names none. -/
def spreadFee (amountSats spreadPpm : ℤ) : ℤ :=
  let fee := asI64 (asF64 amountSats * asF64 spreadPpm / 1000000.0)
  if fee ≤ 0 then 100 else fee

def manualFeePpm (amountSats maxFeeSats : ℤ) : ℤ :=
  if 0 < amountSats then asI64 (asF64 maxFeeSats * 1000000.0 / asF64 amountSats) else 0

def manualRow (fromChannel toChannel : String) (amountSats maxFeeSats : ℤ) : HistoryRow :=
  { id := 0
    fromChannel := fromChannel
    toChannel := toChannel
    amountSats := amountSats
    maxFeeSats := maxFeeSats
    expectedProfitSats := 0
    status := "pending"
    rebalanceType := "manual"
    reasonCode := "manual"
    paymentHash := none }

/-- The reply to the operator, before a warning is added. -/
def closeManual (deps : EngineDeps ω) (rebalanceId : ℤ) (toChannel toPeerId : String)
    (amountSats : ℤ) (result : ExecutionResult) : Engine ω JsonMap := do
  if result.success then
    let feeSats ← recordSuccessfulRebalanceFee deps
      (if 0 < rebalanceId then some rebalanceId
        else none) toChannel toPeerId amountSats result.feeMsat
    pure [("success", .bool true), ("message", .str "completed"), ("actual_fee_sats", .int feeSats)]
  else do
    if !result.paymentPending ∧ 0 < rebalanceId then
      tell deps (.updateHistory rebalanceId "failed" (some (errorText result)))
    else pure ()
    pure [("success", .bool false),
      ("error", .str (if errorText result ≠ "" then errorText result else "rebalance failed"))]

/-- Price, pay and close one candidate that has its channels. -/
def pushManually [UnicodeCase] (deps : EngineDeps ω) (facade : FacadeDeps ω)
    (fromChannel toChannel : String) (source dest : ChannelBalance) (amountSats : ℤ)
    (maxFeeSats : Option ℤ) : Engine ω JsonMap := do
  let estimated ← ask (facade.estimateInboundFee dest.peerId)
  let inboundFee ← Eff.checked estimated
  let margin ← Eff.checked (subI64 dest.feePpm inboundFee)
  let spreadPpm ← Eff.checked (subI64 margin source.feePpm)
  let maxFeeSats := maxFeeSats.getD (spreadFee amountSats spreadPpm)
  let _ ← Eff.checked (mulI64 amountSats 1000)
  let _ ← Eff.checked (mulI64 maxFeeSats 1000)
  let candidate : RebalanceCandidate :=
    { sourceCandidates := [fromChannel]
      toChannel := toChannel
      primarySourcePeerId := source.peerId
      toPeerId := dest.peerId
      amountSats := amountSats
      maxBudgetSats := maxFeeSats
      maxFeePpm := manualFeePpm amountSats maxFeeSats
      expectedProfitSats := 0 }
  let row := manualRow fromChannel toChannel amountSats maxFeeSats
  let rebalanceId ← askLogged (deps.insertOrAdoptHistory row) (.insertOrAdoptHistory row)
  let result ← executeCandidate deps candidate rebalanceId (engineKwargs .manual)
  closeManual deps rebalanceId toChannel dest.peerId amountSats result

/-- EvRebalancer::manual_rebalance. -/
def manualRebalance [UnicodeCase] (deps : EngineDeps ω) (facade : FacadeDeps ω)
    (config : ManualConfig) (fromChannel toChannel : String) (amountSats : ℤ)
    (maxFeeSats : Option ℤ) (force : Bool) : Engine ω JsonMap := do
  let fromChannel := xForm fromChannel
  let toChannel := xForm toChannel
  let amountSats := cappedAmount config amountSats
  let capitalOk ← checkCapitalControls deps facade config.toDiagnosticConfig
  let channels ← channelsWithBalances facade
  let source := channels.find? fun c => c.1 = fromChannel
  let dest := channels.find? fun c => c.1 = toChannel
  match source, dest with
  | some source, some dest => do
    let entries ← pushManually deps facade fromChannel toChannel source.2 dest.2
      amountSats maxFeeSats
    pure (if !capitalOk ∧ !force then
      entries ++ [("capital_controls_warning",
        .str "Budget exhausted or reserve low (manual override)")]
      else entries)
  | _, _ => pure [("error", .str "Channels not found")]

end ManualRebalance
