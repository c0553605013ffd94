import RevenueOps.RouteExecutor
import RevenueOps.KeyedTable
import Mathlib.Data.Finset.Dedup

/-! The pricing router of one cycle: the policy lookups, the price of a middle path, and the
throwaway layers that exclude channels. Every call on the node is logged with its reply. -/
namespace CycleRouter

open FallibleState JsonValue RustNumber RustText KeyedTable
open RouteExecutor (SendpayHop RpcFailure)

def excludeLayerPrefix : String := "rebalance-exclude-"
def autoNoMppLayer : String := "auto.no_mpp_support"

def noRoute : String := "no_route"
def reasonUnknownSourceNode : String := "unknown_source_node"
def reasonUnknownDestNode : String := "unknown_dest_node"
def reasonUnknownLayer : String := "unknown_layer"
def reasonAskreneChildDied : String := "askrene_child_died"
def reasonPathLoopsThroughUs : String := "path_loops_through_us"

def emptyPathFeeSentinel : ℤ := 1000000000000000000

structure GetRoutesRequest where
  source : String
  destination : String
  amountMsat : ℤ
  layers : List String
  maxfeeMsat : ℤ
  finalCltv : ℤ
  deriving DecidableEq

structure RouteResult where
  success : Bool
  error : Option String
  routeCostSats : ℤ
  finalHopFeePpm : ℤ
  hops : ℤ
  route : List SendpayHop
  probabilityPpm : ℤ

def RouteResult.fail (error : String) : RouteResult := ⟨false, some error, 0, 0, 0, [], 0⟩

structure PlannedPairCtx where
  ourNodeId : String
  sourceChannelId : String
  destChannelId : String
  sourcePeerId : String
  destPeerId : String
  amountSats : ℤ
  layerNames : List String
  invoiceFinalCltv : ℤ

structure ChannelPolicy where
  feePpm : ℤ
  feeBaseMsat : ℤ
  cltvDelta : ℤ

def translateGetroutesError (error : String) : String :=
  if contains error "Unknown source node" then reasonUnknownSourceNode
  else if contains error "Unknown destination node" then reasonUnknownDestNode
  else if contains error "Unknown layer" then reasonUnknownLayer
  else if ["child died with signal", "failed to fork", "child produced no output",
      "failed to create pipes"].any (contains error) then reasonAskreneChildDied
  else noRoute

section Fields

/-- Indexing a value by text: what is missing reads as null. -/
def field (v : Json) (k : String) : Json := (v.get k).getD .null

def items : Json → List Json
  | .arr xs => xs
  | _ => []

def trimEndMatches (s : String) (cs : List Char) : String :=
  String.ofList (s.toList.reverse.dropWhile fun c => c ∈ cs).reverse

/-- str::parse for u8: an optional plus sign, then digits; none outside the range. -/
def parseU8 (s : String) : Option ℕ :=
  let value := match s.toList with
    | '+' :: cs => digits cs
    | cs => digits cs
  value.filter fun n => n ≤ 255

def parseMsat [SerdeJson] (v : Json) : Except String ℤ :=
  let malformed := "cannot parse amount_msat: " ++ SerdeJson.toString v
  match v with
  | .null => .ok 0
  | .int _ => (v.asI64).elim (.error malformed) .ok
  | .str s =>
    let trimmed := trim (trimEndMatches s ['m', 's', 'a', 't'])
    if trimmed = "" then .ok 0 else (parseI64 trimmed).elim (.error malformed) .ok
  | _ => .error malformed

def intOrZero : Option Json → ℤ
  | some (.int n) => (Json.int n).asI64.getD 0
  | some (.str s) => (parseI64 (trim s)).getD 0
  | _ => 0

def channelDirection (startNodeId endNodeId : String) : ℕ :=
  if endNodeId < startNodeId then 1 else 0

/-- u32::try_from, or the largest value. -/
def clampU32 (x : ℤ) : ℕ := if 0 ≤ x ∧ x ≤ 4294967295 then x.toNat else 4294967295

def ceilDiv (a b : ℤ) : Option ℤ := do
  let sum ← addI64 a b
  let top ← subI64 sum 1
  pure (top.tdiv b)

def computeFinalHopFeeSats (amountSats feePpm feeBaseMsat : ℤ) : Option ℤ := do
  let amountMsat ← mulI64 amountSats 1000
  let scaled ← mulI64 amountMsat feePpm
  let proportional ← ceilDiv scaled 1000000
  let feeMsat ← addI64 feeBaseMsat proportional
  ceilDiv feeMsat 1000

/-- What a policy adds on top of an amount that it forwards. -/
def withForwardingFee (policy : ChannelPolicy) (amountMsat : ℤ) : Option ℤ := do
  let scaled ← mulI64 amountMsat policy.feePpm
  let proportional ← ceilDiv scaled 1000000
  let fee ← addI64 policy.feeBaseMsat proportional
  addI64 amountMsat fee

def translateHopToSendpay [SerdeJson] (hop : Json) : Except String SendpayHop := do
  let scidd ← ((field hop "short_channel_id_dir").asStr).elim
    (.error "getroutes hop missing short_channel_id_dir") .ok
  let (scid, direction) ← (rsplitOnce scidd '/').elim
    (.error ("malformed short_channel_id_dir: " ++ scidd)) .ok
  let direction ← (parseU8 direction).elim (.error ("malformed direction in " ++ scidd)) .ok
  let id ← ((field hop "next_node_id").asStr).elim
    (.error "getroutes hop missing next_node_id") .ok
  let amountMsat ← parseMsat (field hop "amount_msat")
  let delay ← ((field hop "delay").asI64.filter fun d => 0 ≤ d ∧ d ≤ 4294967295).elim
    (.error "getroutes hop missing delay") .ok
  pure ⟨id, scid, direction, delay.toNat, amountMsat⟩

def validateMiddlePath (path : List Json) (ourNodeId destPeerId : String) : Bool :=
  match path.getLast? with
  | none => false
  | some last =>
    (field last "next_node_id").asStr = some destPeerId &&
      !path.any fun hop => (field hop "next_node_id").asStr = some ourNodeId

def routeFeeMsat [SerdeJson] (route : Json) : Outcome String ℤ :=
  match items (field route "path") with
  | [] => .ok emptyPathFeeSentinel
  | first :: _ => do
    let firstAmt ← .ofExcept (parseMsat (field first "amount_msat"))
    let delivered ← .ofExcept (parseMsat (field route "amount_msat"))
    let fee ← .checked (subI64 firstAmt delivered)
    pure (max fee 0)

/-- The first route of least fee, behind a best one found before. -/
def cheapestAfter [SerdeJson] : Json × ℤ → List Json → Outcome String Json
  | (route, _), [] => .ok route
  | (route, fee), r :: rs => do
    let f ← routeFeeMsat r
    cheapestAfter (if f < fee then (r, f) else (route, fee)) rs

def cheapest [SerdeJson] (route : Json) (routes : List Json) : Outcome String Json := do
  let fee ← routeFeeMsat route
  cheapestAfter (route, fee) routes

end Fields

section Policies

def channelMatchesScid (ch : Json) (destChannelId : String) : Bool :=
  destChannelId = "" || (field ch "short_channel_id").asStr = some destChannelId ||
    (field (field ch "alias") "local").asStr = some destChannelId

/-- The final-hop policy from one channel of listpeerchannels. -/
def remotePolicy (destPeerId destChannelId : String) (ch : Json) : Option ChannelPolicy :=
  let remote := field (field ch "updates") "remote"
  if (field ch "peer_id").asStr = some destPeerId ∧ channelMatchesScid ch destChannelId then
    (field remote "fee_proportional_millionths").asI64.map fun feePpm =>
      ⟨feePpm, intOrZero (remote.get "fee_base_msat"), intOrZero (remote.get "cltv_expiry_delta")⟩
  else none

/-- The final-hop policy from one channel of listchannels; which key is present decides the base. -/
def gossipPolicy (ourNodeId destPeerId : String) (ch : Json) : Option ChannelPolicy :=
  if (field ch "source").asStr = some destPeerId ∧
      (field ch "destination").asStr = some ourNodeId then
    (field ch "fee_per_millionth").asI64.map fun feePpm =>
      ⟨feePpm, intOrZero ((ch.get "base_fee_millisatoshi").or (ch.get "fee_base_msat")),
        intOrZero (ch.get "delay")⟩
  else none

def channelCltv (destChannelId : String) (ch : Json) : Option ℤ :=
  if channelMatchesScid ch destChannelId then
    (field (field (field ch "updates") "remote") "cltv_expiry_delta").asI64
  else none

/-- Fee and delay of the edge, where the channel is the edge and states both. -/
def edgeFees (sourceNodeId channelId nextNodeId : String) (ch : Json) : Option (Json × ℤ × ℤ) :=
  if (field ch "short_channel_id").asStr = some channelId ∧
      (field ch "source").asStr = some sourceNodeId ∧
      (field ch "destination").asStr = some nextNodeId then do
    let feePpm ← (field ch "fee_per_millionth").asI64
    let delay ← (field ch "delay").asI64
    pure (ch, feePpm, delay)
  else none

def forwardingPolicyIn [SerdeJson] (sourceNodeId channelId nextNodeId : String)
    (channels : List Json) : Option ChannelPolicy := do
  let (ch, feePpm, delay) ← channels.findSome? (edgeFees sourceNodeId channelId nextNodeId)
  let base ← (parseMsat (field ch "base_fee_millisatoshi")).toOption
  pure ⟨feePpm, base, delay⟩

end Policies

/-- A cached throwaway layer, under the set of its entries. -/
structure ExcludeLayer where
  key : Finset String
  name : String
  deriving DecidableEq

abbrev ExcludeLayers := Table ExcludeLayer (Finset String) ExcludeLayer.key

/-- The node's methods, the clock in seconds, how many names other routers mint in between, and the
order in which the cache's hash map drains. Any of it may depend on everything before. -/
structure Env (ω : Type) where
  getroutes : GetRoutesRequest → ω → Except RpcFailure Json × ω
  askreneCreateLayer : String → ω → Except RpcFailure Unit × ω
  askreneUpdateChannel : String → String → Bool → ω → Except RpcFailure Unit × ω
  askreneRemoveLayer : String → ω → Except RpcFailure Unit × ω
  askreneListlayers : ω → Except RpcFailure Json × ω
  listpeerchannels : String → ω → Except RpcFailure Json × ω
  listchannelsScid : String → ω → Except RpcFailure Json × ω
  now : ω → ℕ × ω
  otherMints : ω → ℕ × ω
  drain : ω → List ExcludeLayer → List ExcludeLayer
  drain_perm : ∀ w l, (drain w l).Perm l

inductive RouterCall where
  | getroutes (req : GetRoutesRequest) (reply : Except RpcFailure Json)
  | createLayer (name : String) (reply : Except RpcFailure Unit)
  | updateChannel (layer scidDir : String) (enabled : Bool) (reply : Except RpcFailure Unit)
  | removeLayer (name : String) (reply : Except RpcFailure Unit)
  | listlayers (reply : Except RpcFailure Json)
  | listpeerchannels (peerId : String) (reply : Except RpcFailure Json)
  | listchannelsScid (scid : String) (reply : Except RpcFailure Json)

/-- The node, the log, the process-wide name counter, and the two caches of the cycle. -/
structure RouterState (ω : Type) where
  world : ω
  calls : List RouterCall
  excludeCounter : ℕ
  liveLayerNames : Option (List String)
  excludeLayers : ExcludeLayers

abbrev Route (ω ε α : Type) := Eff (RouterState ω) ε α

def beginCycle {ω : Type} (world : ω) (excludeCounter : ℕ) : RouterState ω :=
  ⟨world, [], excludeCounter, none, Table.empty⟩

variable {ω ε : Type}

def issue {α : Type} (call : ω → Except RpcFailure α × ω)
    (entry : Except RpcFailure α → RouterCall) : Route ω ε (Except RpcFailure α) := fun s =>
  let (reply, world) := call s.world
  (.ok reply, { s with world := world, calls := s.calls ++ [entry reply] })

def request {α : Type} (call : ω → Except RpcFailure α × ω)
    (entry : Except RpcFailure α → RouterCall) : Route ω RpcFailure α := do
  Eff.ofExcept (← issue call entry)

section Lookups

variable [SerdeJson] (env : Env ω)

def getFinalHopPolicy (ourNodeId destPeerId destChannelId : String) :
    Route ω ε (Option ChannelPolicy) := do
  let peers ← issue (env.listpeerchannels destPeerId) (.listpeerchannels destPeerId)
  match peers.toOption >>= fun result =>
      (items (field result "channels")).findSome? (remotePolicy destPeerId destChannelId) with
  | some policy => pure (some policy)
  | none =>
    if destChannelId = "" then pure none
    else do
      let gossip ← issue (env.listchannelsScid destChannelId) (.listchannelsScid destChannelId)
      pure (gossip.toOption >>= fun result =>
        (items (field result "channels")).findSome? (gossipPolicy ourNodeId destPeerId))

def getDestChannelCltv (destPeerId destChannelId : String) : Route ω ε ℤ := do
  let peers ← issue (env.listpeerchannels destPeerId) (.listpeerchannels destPeerId)
  pure ((peers.toOption >>= fun result =>
    (items (field result "channels")).findSome? (channelCltv destChannelId)).getD 40)

def getForwardingPolicy (sourceNodeId channelId nextNodeId : String) :
    Route ω ε (Option ChannelPolicy) :=
  if channelId = "" ∨ nextNodeId = "" then pure none
  else do
    let gossip ← issue (env.listchannelsScid channelId) (.listchannelsScid channelId)
    pure (gossip.toOption >>= fun result =>
      forwardingPolicyIn sourceNodeId channelId nextNodeId (items (field result "channels")))

/-- From the last hop backwards; a hop without a policy keeps the router's amount. -/
def repriceMiddleRouteAmounts (finalAmountMsat : ℤ) :
    List SendpayHop → Route ω ε (List SendpayHop)
  | [] => pure []
  | hop :: rest => do
    let repriced ← repriceMiddleRouteAmounts finalAmountMsat rest
    match repriced with
    | [] => pure [{ hop with amountMsat := finalAmountMsat }]
    | outgoing :: _ => do
      let policy ← getForwardingPolicy env hop.id outgoing.channel outgoing.id
      match policy with
      | none => pure (hop :: repriced)
      | some policy => do
        let amountMsat ← Eff.checked (withForwardingFee policy outgoing.amountMsat)
        pure ({ hop with amountMsat := amountMsat } :: repriced)

end Lookups

section Layers

variable (env : Env ω)

/-- The counter is a u64 that all routers of the process share. -/
def mintExcludeLayerName : Route ω ε String := fun s =>
  let (ts, world) := env.now s.world
  let (others, world) := env.otherMints world
  let n := s.excludeCounter + others
  (.ok s!"{excludeLayerPrefix}{ts}-{n % 2 ^ 64}",
    { s with world := world, excludeCounter := n + 1 })

/-- The directions that an entry disables: one where it names it, both where it is a
bare channel. -/
def disabled (entry : String) : List String :=
  if contains entry "/" then [entry] else [s!"{entry}/0", s!"{entry}/1"]

def updateChannels (layerName : String) : List String → Route ω RpcFailure Unit
  | [] => pure ()
  | scidDir :: rest => do
    request (env.askreneUpdateChannel layerName scidDir false)
      (.updateChannel layerName scidDir false)
    updateChannels layerName rest

/-- On a partial failure the layer is removed again before the error goes on. -/
def buildExcludeLayer (entries : List String) : Route ω RpcFailure String := do
  let layerName ← mintExcludeLayerName env
  let built ← Eff.attempt (ε := RpcFailure) (do
    request (env.askreneCreateLayer layerName) (.createLayer layerName)
    updateChannels env layerName (entries.flatMap disabled))
  match built with
  | .ok () => pure layerName
  | .error e => do
    let _ ← issue (env.askreneRemoveLayer layerName) (.removeLayer layerName)
    Eff.throw e

def removeLayers : List String → Route ω ε Unit
  | [] => pure ()
  | name :: names => do
    let _ ← issue (env.askreneRemoveLayer name) (.removeLayer name)
    removeLayers names

def teardownExcludeLayers : Route ω ε Unit := do
  let layers ← Eff.read fun s => (env.drain s.world s.excludeLayers.rows).map ExcludeLayer.name
  Eff.modify fun s => { s with excludeLayers := Table.empty }
  removeLayers env layers

def invalidateLayerCache : Route ω ε Unit := do
  Eff.modify fun s => { s with liveLayerNames := none }
  teardownExcludeLayers env

def probeLayers (requested : List String) : Route ω ε (List String) := do
  let cached ← Eff.read RouterState.liveLayerNames
  match cached with
  | some live => pure (requested.filter fun name => name ∈ live)
  | none => do
    let reply ← issue env.askreneListlayers .listlayers
    match reply with
    | .error _ => pure []
    | .ok result => do
      let live := (items (field result "layers")).map fun l => ((field l "layer").asStr).getD ""
      Eff.modify fun s => { s with liveLayerNames := some live }
      pure (requested.filter fun name => name ∈ live)

/-- The cached layer of the same entries, or a new one. -/
def excludeLayer (entries : List String) : Route ω RpcFailure String := do
  let cached ← Eff.read fun s => s.excludeLayers.find? entries.toFinset
  match cached with
  | some layer => pure layer.name
  | none => do
    let layerName ← buildExcludeLayer env entries
    Eff.modify fun s =>
      { s with excludeLayers := s.excludeLayers.insertOrReplace ⟨entries.toFinset, layerName⟩ }
    pure layerName

end Layers

section Pricing

variable [SerdeJson] (env : Env ω)

/-- The local channels that no exclusion names yet. -/
def middleExcludes (pair : PlannedPairCtx) (exclude : List String) : List String :=
  [pair.sourceChannelId, pair.destChannelId].foldl (fun excludes localScid =>
    if localScid = "" ∨ localScid ∈ excludes then excludes else excludes ++ [localScid]) exclude

/-- What the source peer forwards and the delay of the first hop; the error is a failed result. -/
def firstHopForward (pair : PlannedPairCtx) (requiredFinalCltv finalHopFeeSats : ℤ) :
    List SendpayHop → Route ω String (ℤ × ℤ)
  | [] => do
    let total ← Eff.checked (addI64 pair.amountSats finalHopFeeSats >>= fun x => mulI64 x 1000)
    pure (total, requiredFinalCltv)
  | first :: _ => do
    let policy ← getForwardingPolicy env pair.sourcePeerId first.channel first.id
    match policy with
    | none =>
      Eff.throw ("cannot determine source peer forwarding policy for " ++ first.channel)
    | some policy => do
      let total ← Eff.checked (withForwardingFee policy first.amountMsat)
      let delay ← Eff.checked (addI64 first.delay policy.cltvDelta)
      pure (total, delay)

/-- Our own first and last hops around the middle path, and what the whole route costs. -/
def wrapRoute (pair : PlannedPairCtx) (totalForwardMsat firstHopDelay : ℤ)
    (middle : List SendpayHop) : Option (List SendpayHop × ℤ) := do
  let amountMsat ← mulI64 pair.amountSats 1000
  let overpayMsat ← subI64 totalForwardMsat amountMsat
  let totalCostSats ← if overpayMsat ≤ 0 then some 0 else ceilDiv overpayMsat 1000
  let firstHop : SendpayHop := ⟨pair.sourcePeerId, pair.sourceChannelId,
    channelDirection pair.ourNodeId pair.sourcePeerId, clampU32 firstHopDelay, totalForwardMsat⟩
  let finalHop : SendpayHop := ⟨pair.ourNodeId, pair.destChannelId,
    channelDirection pair.destPeerId pair.ourNodeId, clampU32 pair.invoiceFinalCltv, amountMsat⟩
  pure (firstHop :: middle ++ [finalHop], totalCostSats)

/-- The price of what getroutes returned; the error is that of a failed result. -/
def priceRoutes (pair : PlannedPairCtx)
    (routeAmountMsat finalHopFeePpm finalHopFeeBaseMsat requiredFinalCltv : ℤ) (result : Json) :
    Route ω String RouteResult := do
  match result.get "routes" with
  | some (.arr (route :: routes)) => do
    let best ← Eff.ofOutcome (cheapest route routes)
    let middlePath := items (field best "path")
    if validateMiddlePath middlePath pair.ourNodeId pair.destPeerId = false then
      Eff.throw (reasonPathLoopsThroughUs ++ ": middle path invalid")
    else do
      let hops ← Eff.ofExcept (middlePath.mapM translateHopToSendpay)
      let middle ← repriceMiddleRouteAmounts env routeAmountMsat hops
      let finalHopFeeSats ← Eff.checked
        (computeFinalHopFeeSats pair.amountSats finalHopFeePpm finalHopFeeBaseMsat)
      let (total, delay) ← firstHopForward env pair requiredFinalCltv finalHopFeeSats middle
      let (route, costSats) ← Eff.checked (wrapRoute pair total delay middle)
      pure ⟨true, none, costSats, finalHopFeePpm, route.length, route,
        ((best.get "probability_ppm") >>= Json.asI64).getD 0⟩
  | _ => Eff.throw (noRoute ++ ": getroutes returned empty")

def pricePairInner (pair : PlannedPairCtx)
    (routeAmountMsat finalHopFeePpm finalHopFeeBaseMsat requiredFinalCltv : ℤ)
    (layers : List String) : Route ω ε RouteResult := do
  let req : GetRoutesRequest := ⟨pair.sourcePeerId, pair.destPeerId, routeAmountMsat, layers,
    routeAmountMsat, requiredFinalCltv⟩
  let reply ← issue (env.getroutes req) (.getroutes req)
  match reply with
  | .error e => do
    let reason := translateGetroutesError e.message
    if reason = reasonUnknownLayer then invalidateLayerCache env
    pure (RouteResult.fail (reason ++ ": " ++ e.message))
  | .ok result => do
    let priced ← Eff.attempt (priceRoutes env pair routeAmountMsat finalHopFeePpm
      finalHopFeeBaseMsat requiredFinalCltv result)
    match priced with
    | .ok r => pure r
    | .error message => pure (RouteResult.fail message)

/-- The configured layers that are live, and askrene's own. -/
def baseLayers (layers : List String) : List String :=
  if autoNoMppLayer ∈ layers then layers else layers ++ [autoNoMppLayer]

/-- The delay of the policy that was looked up, where it carries one. -/
def destCltv (pair : PlannedPairCtx) (policy : ChannelPolicy) : Route ω ε ℤ :=
  if policy.cltvDelta ≤ 0 then getDestChannelCltv env pair.destPeerId pair.destChannelId
  else pure policy.cltvDelta

def tryPricePair (pair : PlannedPairCtx) (exclude : List String) :
    Route ω RpcFailure RouteResult := do
  let policy ← getFinalHopPolicy env pair.ourNodeId pair.destPeerId pair.destChannelId
  match policy with
  | none => pure (RouteResult.fail ("cannot determine final-hop fee for peer " ++ pair.destPeerId))
  | some policy => do
    let destCltv ← destCltv env pair policy
    let requiredFinalCltv ← Eff.checked (addI64 destCltv pair.invoiceFinalCltv)
    let finalHopFeeSats ← Eff.checked
      (computeFinalHopFeeSats pair.amountSats policy.feePpm policy.feeBaseMsat)
    let routeAmountMsat ← Eff.checked
      (addI64 pair.amountSats finalHopFeeSats >>= fun x => mulI64 x 1000)
    let live ← probeLayers env pair.layerNames
    let excludes := middleExcludes pair exclude
    if excludes = [] then
      pricePairInner env pair routeAmountMsat policy.feePpm policy.feeBaseMsat requiredFinalCltv
        (baseLayers live)
    else do
      let layerName ← excludeLayer env excludes
      pricePairInner env pair routeAmountMsat policy.feePpm policy.feeBaseMsat requiredFinalCltv
        (baseLayers live ++ [layerName])

/-- The error path of try_price_pair as a failed result. -/
def pricePair (pair : PlannedPairCtx) (exclude : List String) : Route ω ε RouteResult := do
  let tried ← Eff.attempt (tryPricePair env pair exclude)
  match tried with
  | .ok result => pure result
  | .error e => pure (RouteResult.fail e.message)

def drop : Route ω ε Unit := teardownExcludeLayers env

end Pricing

end CycleRouter
