import RevenueOps.FallibleState
import RevenueOps.JsonValue
import RevenueOps.RustNumber

/-! The native route executor: route validation, the dry-run gate, and one payment attempt by
invoice, sendpay and waitsendpay. The payment RPC is a parameter; every call and its reply is
logged, and so is every segment observation. -/
namespace RouteExecutor

open FallibleState JsonValue RustNumber RustText

def invoiceExpirySec : ℤ := 300
def sendpayTimeoutSec : ℤ := 60
def attributedConfidence : Float := 0.85
def inferredConfidenceFloor : Float := 0.2

def dryrunGateSendpayDisabled : String := "dryrun_gate: sendpay_disabled"
def nativeInvoiceErrorPrefix : String := "native_invoice_error: "
def nativeRouteInvalidPrefix : String := "native_route_invalid: "
def nativeRouteOverBudgetPrefix : String := "native_route_over_budget: "
def nativeSendpayErrorPrefix : String := "native_sendpay_error: "
def paymentPendingTimeoutPrefix : String := "payment_pending_timeout: "

/-- Distinguishes a malformed invoice response inside the shared failure handling. -/
def malformedInvoiceMarker : String := String.ofList ['\x00'] ++ "malformed_invoice:"

structure SendpayHop where
  id : String
  channel : String
  direction : ℕ
  delay : ℕ
  amountMsat : ℤ
  deriving DecidableEq

structure RpcFailure where
  message : String
  deriving DecidableEq

inductive PaymentMode where
  | dryRun
  | live
  deriving DecidableEq, Repr

structure ExecuteRequest where
  route : List SendpayHop
  amountSats : ℤ
  sourceChannelId : String
  destChannelId : String
  maxFeeSats : ℤ
  ourId : String
  nowMs : ℤ

structure ExecutionResult where
  success : Bool
  attempts : ℤ
  feeSats : ℤ
  feeMsat : ℤ
  feePpm : ℤ
  hops : ℤ
  parts : ℤ
  error : Option String
  amountSats : ℤ
  paymentPending : Bool
  paymentHash : Option String
  excludedChannels : List String
  routeType : String
  failureData : Json

/-- The node's payment methods; their replies may depend on everything before. -/
structure PaymentRpc (ω : Type) where
  invoice : ℤ → String → ℤ → ω → Except RpcFailure Json × ω
  sendpay : List SendpayHop → String → String → String → ω → Except RpcFailure Json × ω
  waitsendpay : String → ℤ → ω → Except RpcFailure Json × ω
  delpay : String → String → ω → Except RpcFailure Unit × ω
  delinvoice : String → String → ω → Except RpcFailure Unit × ω

inductive RpcCall where
  | invoice (amountMsat : ℤ) (label : String) (expirySecs : ℤ) (reply : Except RpcFailure Json)
  | sendpay (route : List SendpayHop) (paymentHash bolt11 paymentSecret : String)
      (reply : Except RpcFailure Json)
  | waitsendpay (paymentHash : String) (timeoutSecs : ℤ) (reply : Except RpcFailure Json)
  | delpay (paymentHash status : String) (reply : Except RpcFailure Unit)
  | delinvoice (label status : String) (reply : Except RpcFailure Unit)

/-- The arguments of one SegmentObservationStore::record call. -/
structure SegmentRecord where
  shortChannelId : String
  direction : ℕ
  amountSats : ℤ
  failureClass : String
  confidence : Float
  now : ℤ

/-- The node, the logs, and the two locals that the attempt sets for its caller. -/
structure ExecState (ω : Type) where
  world : ω
  calls : List RpcCall
  observations : List SegmentRecord
  paymentHash : String
  paymentAttempted : Bool

abbrev Exec (ω ε α : Type) := Eff (ExecState ω) ε α

variable {ω : Type}

def ExecState.start (world : ω) : ExecState ω := ⟨world, [], [], "", false⟩

def baseToSatsCeil (baseMsat : ℤ) : Option ℤ := (addI64 baseMsat 999).map fun x => x.tdiv 1000

def parseMsat : Json → ℤ
  | .int n => if InI64 n then n else asI64 (asF64 n)
  | .float x => asI64 x
  | .str s =>
    let s := trim s
    (parseI64 ((stripSuffix s "msat").getD s)).getD 0
  | _ => 0

def routeSummary (route : List SendpayHop) : Json :=
  .arr (route.zipIdx.map fun (hop, index) => .obj
    [("amount_msat", .int hop.amountMsat), ("channel", .str hop.channel), ("delay", .int hop.delay),
      ("direction", .int hop.direction), ("id", .str hop.id), ("index", .int index)])

def failureClass [UnicodeCase] (errorText : String) : String :=
  let normalized := toLowercase errorText
  if contains normalized "temporary_channel_failure" then "liquidity"
  else if contains normalized "fee_insufficient" ∨ contains normalized "incorrect_cltv_expiry" then
    "fee"
  else if contains normalized "timeout" ∨ contains normalized "deadline" then "timeout"
  else "unknown"

/-- Copy the members of `source` under `keys` into `target`. -/
def copyMembers (source : JsonMap) (keys : List String) (target : JsonMap) : JsonMap :=
  keys.foldl (fun m k =>
    match source.lookup k with
    | some v => Json.insertMember m k v
    | none => m) target

/-- The text and the details of an RPC failure; a JSON object message is a structured error. -/
def errorDetails [SerdeJson] (failure : RpcFailure) : String × JsonMap :=
  match SerdeJson.fromStr failure.message with
  | some (.obj err) =>
    let details := copyMembers err ["code", "message"] []
    let details := match JsonMap.lookup err "data" with
      | some (.obj data) =>
        copyMembers data ["erring_channel", "erring_direction", "erring_node", "erring_index",
          "failcode", "failcodename", "failcode_name"] details
      | _ => details
    let text := match JsonMap.lookup err "message" with
      | some (.str msg) => if msg ≠ "" then msg else failure.message
      | _ => failure.message
    (text, details)
  | _ => (failure.message, [])

def compactDetailSuffix [SerdeJson] (details : JsonMap) : String :=
  let keys := ["failcodename", "failcode_name", "failcode", "erring_channel", "erring_direction",
    "erring_index", "erring_node"]
  let parts := keys.filterMap fun key =>
    match details.lookup key with
    | none => none
    | some .null => none
    | some (.str s) => if s = "" then none else some (key ++ "=" ++ s)
    | some other => some (key ++ "=" ++ SerdeJson.toString other)
  if parts.isEmpty then "" else " (" ++ String.intercalate ", " parts ++ ")"

def directionAsBit : Option Json → Option ℕ
  | some (.int 0) => some 0
  | some (.int 1) => some 1
  | some (.str s) => if s = "0" then some 0 else if s = "1" then some 1 else none
  | _ => none

def erringChannel (details : JsonMap) : String :=
  trim ((details.lookup "erring_channel" >>= Json.asStr).getD "")

/-- Without an erring channel only the hops between the two local channels are excluded. -/
def middleHopExclusions (route : List SendpayHop) : List String :=
  if 2 < route.length then
    (route.drop 1).dropLast.foldl (fun exclusions hop =>
      let scid := trim hop.channel
      if scid = "" then exclusions
      else
        let entry := s!"{scid}/{hop.direction}"
        if entry ∈ exclusions then exclusions else exclusions ++ [entry]) []
  else []

def excludeFromFailure [UnicodeCase] (route : List SendpayHop) (details : JsonMap)
    (errorText : String) : List String :=
  let channel := erringChannel details
  if channel ≠ "" then
    match directionAsBit (details.lookup "erring_direction") with
    | some direction => [s!"{channel}/{direction}"]
    | none => [channel]
  else if failureClass errorText = "liquidity" ∨ failureClass errorText = "fee" then
    middleHopExclusions route
  else []

def isPaymentUnresolved [UnicodeCase] (paymentAttempted : Bool) (rawMessage errorText : String)
    (details : JsonMap) : Bool :=
  if !paymentAttempted then false
  else if (details.lookup "code" >>= Json.asI64) = some 200 then true
  else if contains (toLowercase rawMessage) "rpc timeout" then true
  else contains errorText "waitsendpay_status=pending"

structure Failure where
  rawMessage : String
  errorText : String
  details : JsonMap

def Failure.fromRpc [SerdeJson] (failure : RpcFailure) : Failure :=
  let (errorText, details) := errorDetails failure
  ⟨failure.message, errorText, details⟩

def Failure.internal (text : String) : Failure := ⟨text, text, []⟩

/-- The hop amounts are positive and do not increase along the route. -/
def checkHops (index : ℕ) (previousMsat : Option ℤ) :
    List SendpayHop → Outcome (String × ℤ) Unit
  | [] => .ok ()
  | hop :: route =>
    if hop.amountMsat ≤ 0 then .err (s!"hop_{index}_invalid_amount", 0)
    else if previousMsat.any fun prev => prev < hop.amountMsat then
      .err ("increasing_route_amount", 0)
    else checkHops (index + 1) (some hop.amountMsat) route

/-- The planned fee in msat, or the reason with the fee that it shows. -/
def validateRoute (req : ExecuteRequest) : Outcome (String × ℤ) ℤ :=
  if req.amountSats ≤ 0 then .err ("invalid_amount", 0)
  else
    match req.route.head?, req.route.getLast? with
    | some first, some last =>
      if first.channel ≠ req.sourceChannelId then .err ("first_hop_not_source_channel", 0)
      else if last.channel ≠ req.destChannelId then .err ("final_hop_not_dest_channel", 0)
      else if last.id ≠ req.ourId then .err ("final_hop_not_our_node", 0)
      else do
        let expectedFinalMsat ← .checked (mulI64 req.amountSats 1000)
        if last.amountMsat ≠ expectedFinalMsat then .err ("final_amount_mismatch", 0)
        else do
          checkHops 0 none req.route
          let difference ← .checked (subI64 first.amountMsat expectedFinalMsat)
          let feeMsat := max difference 0
          let maxFeeMsat ← .checked (mulI64 (max req.maxFeeSats 0) 1000)
          if maxFeeMsat < feeMsat then do
            let feeSats ← .checked (baseToSatsCeil feeMsat)
            .err (s!"route_over_budget: {feeSats} > {req.maxFeeSats}", feeMsat)
          else pure feeMsat
    | _, _ => .err ("missing_route", 0)

section Rpc

variable {ε α : Type}

/-- Issue a call, log it with its reply, and hand the reply on. -/
def issue (call : ω → Except RpcFailure α × ω) (log : Except RpcFailure α → RpcCall) :
    Exec ω ε (Except RpcFailure α) := fun s =>
  let (reply, world) := call s.world
  (.ok reply, { s with
    world := world
    calls := s.calls ++ [log reply] })

def orFail [SerdeJson] (reply : Except RpcFailure α) : Exec ω Failure α :=
  match reply with
  | .ok a => pure a
  | .error failure => Eff.throw (Failure.fromRpc failure)

end Rpc

/-- Text of an invoice member; the empty text when it is absent. -/
def textMember (m : JsonMap) (k : String) : String := (m.lookup k >>= Json.asStr).getD ""

/-- What a status other than complete, null or absent shows. -/
def incompleteStatus [SerdeJson] (paid : Json) : Option String :=
  match paid with
  | .obj members =>
    match JsonMap.lookup members "status" with
    | none => none
    | some .null => none
    | some (.str s) => if s = "complete" then none else some s
    | some other => some (SerdeJson.toString other)
  | _ => none

def attemptPayment [SerdeJson] (rpc : PaymentRpc ω) (req : ExecuteRequest) (label : String) :
    Exec ω Failure Json := do
  let amountMsat ← Eff.checked (mulI64 req.amountSats 1000)
  let invoice ← issue (rpc.invoice amountMsat label invoiceExpirySec)
    (.invoice amountMsat label invoiceExpirySec)
  let invoice ← orFail invoice
  match invoice with
  | .obj invoice => do
    let hash := textMember invoice "payment_hash"
    if hash = "" then
      Eff.throw (Failure.internal (malformedInvoiceMarker ++ "missing payment_hash"))
    else do
      Eff.modify fun s => { s with paymentHash := hash }
      let bolt11 := textMember invoice "bolt11"
      let paymentSecret := textMember invoice "payment_secret"
      Eff.modify fun s => { s with paymentAttempted := true }
      let sent ← issue (rpc.sendpay req.route hash bolt11 paymentSecret)
        (.sendpay req.route hash bolt11 paymentSecret)
      let _ ← orFail sent
      let paid ← issue (rpc.waitsendpay hash sendpayTimeoutSec)
        (.waitsendpay hash sendpayTimeoutSec)
      let paid ← orFail paid
      match incompleteStatus paid with
      | some text => Eff.throw (Failure.internal ("waitsendpay_status=" ++ text))
      | none => pure paid
  | _ => Eff.throw (Failure.internal (malformedInvoiceMarker ++ "unexpected response"))

def deletePayment (rpc : PaymentRpc ω) (paymentHash : String) : Exec ω Empty Unit :=
  if paymentHash ≠ "" then do
    let _ ← issue (rpc.delpay paymentHash "failed") (.delpay paymentHash "failed")
    pure ()
  else pure ()

def deleteInvoice (rpc : PaymentRpc ω) (label : String) : Exec ω Empty Unit :=
  if label ≠ "" then do
    let _ ← issue (rpc.delinvoice label "unpaid") (.delinvoice label "unpaid")
    pure ()
  else pure ()

/-- Best effort; every error is swallowed. -/
def cleanupFailedPayment (rpc : PaymentRpc ω) (paymentHash label : String) :
    Exec ω Empty Unit := do
  deletePayment rpc paymentHash
  deleteInvoice rpc label

/-- The directed suspects among the excluded channels. -/
def directedSuspects (excludedChannels : List String) : List (String × ℕ) :=
  excludedChannels.filterMap fun entry =>
    match splitOnce entry '/' with
    | none => none
    | some (scid, directionText) =>
      if scid = "" then none
      else
        match parseI64 directionText with
        | none => none
        | some direction =>
          if 0 ≤ direction ∧ direction ≤ 255 then some (scid, direction.toNat) else none

/-- Blame for a failure: the named channel, or a share for every suspect. -/
def observationTargets (failureData : JsonMap) (excludedChannels : List String) :
    List (String × ℕ × Float) :=
  let channel := erringChannel failureData
  if channel ≠ "" then
    match directionAsBit (failureData.lookup "erring_direction") with
    | some direction => [(channel, direction, attributedConfidence)]
    | none => [0, 1].map fun direction => (channel, direction, attributedConfidence / 2.0)
  else
    let directed := directedSuspects excludedChannels
    let confidence := max (attributedConfidence / asF64 directed.length) inferredConfidenceFloor
    directed.map fun (scid, direction) => (scid, direction, confidence)

def recordFailureObservations (result : ExecutionResult) (req : ExecuteRequest) :
    Exec ω Empty Unit :=
  if result.success then pure ()
  else
    match result.failureData with
    | .obj failureData =>
      let cls := textMember failureData "failure_class"
      let cls := if cls = "" then "unknown" else cls
      let records := (observationTargets failureData result.excludedChannels).map
        fun (scid, direction, confidence) =>
          (⟨scid, direction, req.amountSats, cls, confidence, req.nowMs.tdiv 1000⟩ : SegmentRecord)
      Eff.modify fun s => { s with observations := s.observations ++ records }
    | _ => pure ()

def initialResult (req : ExecuteRequest) : ExecutionResult :=
  { success := false
    attempts := 1
    feeSats := 0
    feeMsat := 0
    feePpm := 0
    hops := req.route.length
    parts := 1
    error := none
    amountSats := req.amountSats
    paymentPending := false
    paymentHash := none
    excludedChannels := []
    routeType := "native"
    failureData := .obj [("route_summary", routeSummary req.route)] }

def paidFeePpm (amountSats amountMsat actualFeeMsat : ℤ) : Option ℤ :=
  if 0 < amountSats then (mulI64 actualFeeMsat 1000000).map fun scaled => scaled.tdiv amountMsat
  else some 0

/-- The result of a completed payment; a reply without the sent amount counts the first hop. -/
def settledResult (req : ExecuteRequest) (paid : Json) : Option ExecutionResult := do
  let actualSentMsat := match paid with
    | .obj members => parseMsat ((JsonMap.lookup members "amount_sent_msat").getD .null)
    | _ => 0
  let sent := if actualSentMsat ≠ 0 then actualSentMsat
    else (req.route.head?.map SendpayHop.amountMsat).getD 0
  let amountMsat ← mulI64 req.amountSats 1000
  let difference ← subI64 sent amountMsat
  let actualFeeMsat := max difference 0
  let feeSats ← baseToSatsCeil actualFeeMsat
  let feePpm ← paidFeePpm req.amountSats amountMsat actualFeeMsat
  pure
    { initialResult req with
      success := true
      feeMsat := actualFeeMsat
      feeSats := feeSats
      feePpm := feePpm }

/-- The payment is abandoned, not cancelled: invoice and payment stay. -/
def pendingResult (req : ExecuteRequest) (plannedFeeMsat : ℤ) (label paymentHash : String)
    (failure : Failure) : Option ExecutionResult := do
  let feeSats ← baseToSatsCeil plannedFeeMsat
  pure
    { initialResult req with
      paymentPending := true
      error := some (paymentPendingTimeoutPrefix ++ failure.errorText)
      feeMsat := plannedFeeMsat
      feeSats := feeSats
      paymentHash := some paymentHash
      failureData := .obj [("failure_class", .str "pending"), ("invoice_label", .str label),
        ("payment_hash", .str paymentHash), ("route_summary", routeSummary req.route)] }

def malformedInvoiceResult [UnicodeCase] (req : ExecuteRequest) (reason : String) :
    ExecutionResult :=
  let error := nativeInvoiceErrorPrefix ++ reason
  { initialResult req with
    error := some error
    failureData := .obj [("failure_class", .str (failureClass error)),
      ("route_summary", routeSummary req.route)] }

def failedPaymentResult [UnicodeCase] [SerdeJson] (req : ExecuteRequest) (failure : Failure) :
    ExecutionResult :=
  let failureData := Json.insertMember failure.details "failure_class"
    (.str (failureClass failure.errorText))
  let failureData := Json.insertMember failureData "route_summary" (routeSummary req.route)
  { initialResult req with
    excludedChannels := excludeFromFailure req.route failure.details failure.errorText
    error := some (nativeSendpayErrorPrefix ++ failure.errorText ++ compactDetailSuffix failureData)
    failureData := .obj failureData }

def shownFeeSats (feeMsat : ℤ) : Option ℤ :=
  if feeMsat ≠ 0 then baseToSatsCeil feeMsat else some 0

def invalidRouteResult (req : ExecuteRequest) (reason : String) (feeMsat : ℤ) :
    Option ExecutionResult := do
  let pre := if startsWith reason "route_over_budget" then nativeRouteOverBudgetPrefix
    else nativeRouteInvalidPrefix
  let feeSats ← shownFeeSats feeMsat
  pure
    { initialResult req with
      error := some (pre ++ reason)
      feeMsat := feeMsat
      feeSats := feeSats }

def gatedResult (req : ExecuteRequest) (plannedFeeMsat : ℤ) : Option ExecutionResult := do
  let feeSats ← baseToSatsCeil plannedFeeMsat
  pure
    { initialResult req with
      error := some dryrunGateSendpayDisabled
      feeMsat := plannedFeeMsat
      feeSats := feeSats }

def settleFailure [UnicodeCase] [SerdeJson] (rpc : PaymentRpc ω) (req : ExecuteRequest)
    (plannedFeeMsat : ℤ) (label : String) (failure : Failure) : Exec ω Empty ExecutionResult := do
  let paymentHash ← Eff.read ExecState.paymentHash
  let paymentAttempted ← Eff.read ExecState.paymentAttempted
  if isPaymentUnresolved paymentAttempted failure.rawMessage failure.errorText failure.details then
    Eff.checked (pendingResult req plannedFeeMsat label paymentHash failure)
  else
    match stripPrefix failure.rawMessage malformedInvoiceMarker with
    | some reason => do
      cleanupFailedPayment rpc "" label
      pure (malformedInvoiceResult req reason)
    | none => do
      let result := failedPaymentResult req failure
      cleanupFailedPayment rpc paymentHash label
      recordFailureObservations result req
      pure result

/-- NativeRouteExecutor::execute. -/
def execute [UnicodeCase] [SerdeJson] (rpc : PaymentRpc ω) (mode : PaymentMode)
    (req : ExecuteRequest) : Exec ω Empty ExecutionResult :=
  match validateRoute req with
  | .panic => Eff.panic
  | .err (reason, feeMsat) => Eff.checked (invalidRouteResult req reason feeMsat)
  | .ok plannedFeeMsat =>
    match mode with
    | .dryRun => Eff.checked (gatedResult req plannedFeeMsat)
    | .live => do
      let label := s!"rebal-native-{req.nowMs}-{req.destChannelId}"
      let attempt ← Eff.attempt (attemptPayment rpc req label)
      match attempt with
      | .ok paid => Eff.checked (settledResult req paid)
      | .error failure => settleFailure rpc req plannedFeeMsat label failure

end RouteExecutor
