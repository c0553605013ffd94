import RevenueOps.RoutePricing

/-! The stages of one pricing call: what the node has answered by then, and what the call does next
where the integers of the stage fit. -/
namespace CycleRouter

open FallibleState JsonValue RustNumber
open RouteExecutor (SendpayHop RpcFailure)

variable {ω : Type} [SerdeJson] {env : Env ω} {pair : PlannedPairCtx} {exclude : List String}
  {s : RouterState ω}

section Program

variable (env pair exclude)

/-- The layers of the search: live ones, askrene's own, and one that excludes what is to be
excluded. -/
def searchLayers : Route ω RpcFailure (List String) := do
  let live ← probeLayers env pair.layerNames
  let excludes := middleExcludes pair exclude
  if excludes = [] then pure (baseLayers live)
  else do
    let layerName ← excludeLayer env excludes
    pure (baseLayers live ++ [layerName])

def priceHops (routeAmountMsat finalHopFeePpm finalHopFeeBaseMsat requiredFinalCltv : ℤ)
    (chosen : Json × List SendpayHop) : Route ω String RouteResult := do
  let middle ← repriceMiddleRouteAmounts env routeAmountMsat chosen.2
  let finalHopFeeSats ← Eff.checked
    (computeFinalHopFeeSats pair.amountSats finalHopFeePpm finalHopFeeBaseMsat)
  let (total, delay) ← firstHopForward env pair requiredFinalCltv finalHopFeeSats middle
  let (route, costSats) ← Eff.checked (wrapRoute pair total delay middle)
  pure ⟨true, none, costSats, finalHopFeePpm, route.length, route,
    ((chosen.1.get "probability_ppm") >>= Json.asI64).getD 0⟩

theorem priceRoutes_eq (a b c d : ℤ) (result : Json) :
    priceRoutes env pair a b c d result =
      Eff.ofOutcome (chooseRoute pair result) >>= priceHops env pair a b c d := by
  funext s
  unfold priceRoutes chooseRoute
  match result.get "routes" with
  | some (.arr (route :: routes)) =>
    cases hbest : cheapest route routes with
    | panic => simp only [hbest]; rfl
    | err e => simp only [hbest]; rfl
    | ok best =>
      simp only [hbest]
      change (if _ then _ else _ : Route ω String RouteResult) s =
        (Eff.ofOutcome (if _ then _ else _) >>= priceHops env pair a b c d) s
      by_cases hvalid : validateMiddlePath (items (field best "path")) pair.ourNodeId
          pair.destPeerId = false
      · rw [if_pos hvalid, if_pos hvalid]
        rfl
      · rw [if_neg hvalid, if_neg hvalid]
        cases (items (field best "path")).mapM translateHopToSendpay with
        | error e => rfl
        | ok hops => rfl
  | some (.arr []) => rfl
  | some .null | some (.bool _) | some (.int _) | some (.float _) | some (.str _)
  | some (.obj _) | none => rfl

def asResult (m : Route ω String RouteResult) : Route ω RpcFailure RouteResult := do
  match ← Eff.attempt m with
  | .ok r => pure r
  | .error message => pure (RouteResult.fail message)

end Program

theorem tryPricePair_tail (a b c d : ℤ) (t : RouterState ω) :
    (do
      let live ← probeLayers env pair.layerNames
      let excludes := middleExcludes pair exclude
      if excludes = [] then pricePairInner env pair a b c d (baseLayers live)
      else do
        let layerName ← excludeLayer env excludes
        pricePairInner env pair a b c d (baseLayers live ++ [layerName]) :
      Route ω RpcFailure RouteResult) t =
    (searchLayers env pair exclude >>= pricePairInner env pair a b c d) t := by
  unfold searchLayers
  rw [bind_assoc_run]
  apply bind_congr_run
  intro live u
  by_cases hnone : middleExcludes pair exclude = []
  · simp only [if_pos hnone]
    rfl
  · simp only [if_neg hnone]
    rw [bind_assoc_run]
    rfl

structure FinalHopHeard (env : Env ω) (pair : PlannedPairCtx) (s : RouterState ω) where
  policy : ChannelPolicy
  destCltv : ℤ
  afterPolicy : RouterState ω
  afterCltv : RouterState ω
  policyHeard : (getFinalHopPolicy env pair.ourNodeId pair.destPeerId pair.destChannelId :
    Route ω RpcFailure _) s = (.ok (some policy), afterPolicy)
  cltvHeard : (CycleRouter.destCltv env pair policy : Route ω RpcFailure _) afterPolicy =
    (.ok destCltv, afterCltv)

namespace FinalHopHeard

variable (h : FinalHopHeard env pair s)

def requiredCltv : ℤ := h.destCltv + pair.invoiceFinalCltv

def routeAmount : ℤ := grossMsat pair.amountSats (h.policy.feeSats pair.amountSats)

structure Fits : Prop where
  cltv : InI64 h.requiredCltv
  fee : h.policy.FeeSatsFits pair.amountSats
  gross : GrossFits pair.amountSats (h.policy.feeSats pair.amountSats)

def request (layers : List String) : GetRoutesRequest :=
  ⟨pair.sourcePeerId, pair.destPeerId, h.routeAmount, layers, h.routeAmount, h.requiredCltv⟩

end FinalHopHeard

structure RoutesHeard (env : Env ω) (pair : PlannedPairCtx) (exclude : List String)
    (s : RouterState ω) extends FinalHopHeard env pair s where
  layers : List String
  result : Json
  afterLayers : RouterState ω
  afterRoutes : RouterState ω
  layersHeard : searchLayers env pair exclude afterCltv = (.ok layers, afterLayers)
  routesHeard : (issue (env.getroutes (toFinalHopHeard.request layers))
    (.getroutes (toFinalHopHeard.request layers)) : Route ω RpcFailure _) afterLayers =
      (.ok (.ok result), afterRoutes)

structure MiddleHeard (env : Env ω) (pair : PlannedPairCtx) (exclude : List String)
    (s : RouterState ω) extends RoutesHeard env pair exclude s where
  best : Json
  hops : List SendpayHop
  edges : List (SendpayHop × Option ChannelPolicy)
  afterEdges : RouterState ω
  chosen : chooseRoute pair result = .ok (best, hops)
  edgesHeard : (lookupEdges env hops : Route ω String _) afterRoutes = (.ok edges, afterEdges)

def MiddleHeard.middle (h : MiddleHeard env pair exclude s) : List SendpayHop :=
  exactReprice h.routeAmount h.edges

structure SourceHeard (env : Env ω) (pair : PlannedPairCtx) (exclude : List String)
    (s : RouterState ω) extends MiddleHeard env pair exclude s where
  first : SendpayHop
  later : List SendpayHop
  sourcePolicy : ChannelPolicy
  afterSource : RouterState ω
  middle_eq : toMiddleHeard.middle = first :: later
  sourceHeard : (getForwardingPolicy env pair.sourcePeerId first.channel first.id :
    Route ω String _) afterEdges = (.ok (some sourcePolicy), afterSource)

namespace SourceHeard

variable (h : SourceHeard env pair exclude s)

def total : ℤ := h.first.amountMsat + h.sourcePolicy.fee h.first.amountMsat

def delay : ℤ := h.first.delay + h.sourcePolicy.cltvDelta

def overpay : ℤ := h.total - pair.amountSats * 1000

structure Fits : Prop where
  forward : h.sourcePolicy.ForwardFits h.first.amountMsat
  delay : InI64 h.delay
  overpay : InI64 h.overpay
  cost : 0 < h.overpay → CeilFits h.overpay 1000

def cost : ℤ := if h.overpay ≤ 0 then 0 else exactCeil h.overpay 1000

def firstHop : SendpayHop := ⟨pair.sourcePeerId, pair.sourceChannelId,
  channelDirection pair.ourNodeId pair.sourcePeerId, clampU32 h.delay, h.total⟩

variable (pair) in
def finalHop : SendpayHop := ⟨pair.ourNodeId, pair.destChannelId,
  channelDirection pair.destPeerId pair.ourNodeId, clampU32 pair.invoiceFinalCltv,
  pair.amountSats * 1000⟩

def route : List SendpayHop := h.firstHop :: h.middle ++ [finalHop pair]

def price : RouteResult := ⟨true, none, h.cost, h.policy.feePpm, h.route.length, h.route,
  ((h.best.get "probability_ppm") >>= Json.asI64).getD 0⟩

end SourceHeard

section Runs

theorem tryPricePair_search (h : FinalHopHeard env pair s) (hfits : h.Fits) :
    tryPricePair env pair exclude s = (searchLayers env pair exclude >>=
      pricePairInner env pair h.routeAmount h.policy.feePpm h.policy.feeBaseMsat h.requiredCltv)
        h.afterCltv := by
  apply (bind_run h.policyHeard).trans
  apply (bind_run h.cltvHeard).trans
  apply (bind_run (checked_run ((computes_i64 _).value hfits.cltv) _)).trans
  apply (bind_run (checked_run ((computes_computeFinalHopFeeSats _ _).value hfits.fee) _)).trans
  apply (bind_run (checked_run ((computes_gross _ _).value hfits.gross) _)).trans
  exact tryPricePair_tail _ _ _ _ _

theorem tryPricePair_panics_finalHop (h : FinalHopHeard env pair s) (hfits : ¬h.Fits) :
    (tryPricePair env pair exclude s).1 = .panic := by
  rw [show tryPricePair env pair exclude s = _ from
    (bind_run h.policyHeard).trans (bind_run h.cltvHeard)]
  have hsum : Computes (addI64 h.destCltv pair.invoiceFinalCltv) (InI64 h.requiredCltv)
      h.requiredCltv := computes_i64 _
  by_cases hcltv : InI64 h.requiredCltv
  · rw [bind_run (checked_run (hsum.value hcltv) _)]
    by_cases hfee : h.policy.FeeSatsFits pair.amountSats
    · rw [bind_run (checked_run ((computes_computeFinalHopFeeSats _ _).value hfee) _)]
      apply bind_panics
      rw [(computes_gross _ _).missing fun hgross => hfits ⟨hcltv, hfee, hgross⟩]
      rfl
    · apply bind_panics
      rw [(computes_computeFinalHopFeeSats _ _).missing hfee]
      rfl
  · apply bind_panics
    rw [hsum.missing hcltv]
    rfl

theorem tryPricePair_routes (h : RoutesHeard env pair exclude s) (hfits : h.toFinalHopHeard.Fits) :
    tryPricePair env pair exclude s = asResult (Eff.ofOutcome (chooseRoute pair h.result) >>=
      priceHops env pair h.routeAmount h.policy.feePpm h.policy.feeBaseMsat h.requiredCltv)
        h.afterRoutes := by
  rw [tryPricePair_search h.toFinalHopHeard hfits, bind_run h.layersHeard, ← priceRoutes_eq]
  exact bind_run h.routesHeard

theorem tryPricePair_hops (h : MiddleHeard env pair exclude s) (hfits : h.toFinalHopHeard.Fits) :
    tryPricePair env pair exclude s = asResult (priceHops env pair h.routeAmount h.policy.feePpm
      h.policy.feeBaseMsat h.requiredCltv (h.best, h.hops)) h.afterRoutes := by
  rw [tryPricePair_routes h.toRoutesHeard hfits, h.chosen]
  rfl

omit [SerdeJson] in
theorem asResult_panics {m : Route ω String RouteResult} {t : RouterState ω}
    (h : (m t).1 = .panic) : (asResult m t).1 = .panic := by
  apply bind_panics
  unfold Eff.attempt
  split <;> simp_all

omit [SerdeJson] in
theorem asResult_ok {m : Route ω String RouteResult} {t u : RouterState ω} {r : RouteResult}
    (h : m t = (.ok r, u)) : asResult m t = (.ok r, u) := bind_run (attempt_run h)

omit [SerdeJson] in
theorem asResult_err {m : Route ω String RouteResult} {t u : RouterState ω} {e : String}
    (h : m t = (.err e, u)) : asResult m t = (.ok (RouteResult.fail e), u) := by
  have hattempt : (Eff.attempt m : Route ω RpcFailure _) t = (.ok (.error e), u) := by
    unfold Eff.attempt
    rw [h]
  exact bind_run hattempt

theorem tryPricePair_panics_routes (h : RoutesHeard env pair exclude s)
    (hhop : h.toFinalHopHeard.Fits) (hfits : ¬ReplyFits h.result) :
    (tryPricePair env pair exclude s).1 = .panic := by
  rw [tryPricePair_routes h hhop]
  apply asResult_panics
  apply bind_panics
  exact (chooseRoute_panics pair h.result).mpr hfits

theorem tryPricePair_panics_middle (h : MiddleHeard env pair exclude s)
    (hhop : h.toFinalHopHeard.Fits) (hfits : ¬RepriceFits h.routeAmount h.edges) :
    (tryPricePair env pair exclude s).1 = .panic := by
  rw [tryPricePair_hops h hhop]
  apply asResult_panics
  apply bind_panics
  exact reprice_panics h.edgesHeard hfits

theorem priceHops_run (h : MiddleHeard env pair exclude s) (hhop : h.toFinalHopHeard.Fits)
    (hfits : RepriceFits h.routeAmount h.edges) :
    priceHops env pair h.routeAmount h.policy.feePpm h.policy.feeBaseMsat h.requiredCltv
      (h.best, h.hops) h.afterRoutes =
    (do
      let (total, delay) ← firstHopForward env pair h.requiredCltv
        (h.policy.feeSats pair.amountSats) h.middle
      let (route, costSats) ← Eff.checked (wrapRoute pair total delay h.middle)
      pure ⟨true, none, costSats, h.policy.feePpm, route.length, route,
        ((h.best.get "probability_ppm") >>= Json.asI64).getD 0⟩ : Route ω String RouteResult)
      h.afterEdges := by
  apply (bind_run (reprice_run h.edgesHeard hfits)).trans
  exact bind_run (checked_run ((computes_computeFinalHopFeeSats _ _).value hhop.fee) _)

omit [SerdeJson] in
theorem computes_cost {α : Type} (overpayMsat : ℤ) (f : ℤ → α) :
    Computes (if overpayMsat ≤ 0 then do
        let cost ← some 0
        pure (f cost)
      else do
        let cost ← ceilDiv overpayMsat 1000
        pure (f cost))
      (0 < overpayMsat → CeilFits overpayMsat 1000)
      (f (if overpayMsat ≤ 0 then 0 else exactCeil overpayMsat 1000)) := by
  by_cases hpaid : overpayMsat ≤ 0
  · rw [if_pos hpaid, if_pos hpaid]
    exact ⟨fun _ => rfl, fun h => absurd (fun hp => absurd hpaid (not_le.mpr hp)) h⟩
  · rw [if_neg hpaid, if_neg hpaid]
    apply Computes.congr
    · exact (computes_ceilDiv _ _).bind (f := fun cost => pure (f cost)) (computes_pure _)
    · simp [not_le.mp hpaid]

theorem computes_wrapRoute (h : SourceHeard env pair exclude s)
    (hamount : InI64 (pair.amountSats * 1000)) :
    Computes (wrapRoute pair h.total h.delay h.middle)
      (InI64 h.overpay ∧ (0 < h.overpay → CeilFits h.overpay 1000)) (h.route, h.cost) := by
  have hmul : Computes (mulI64 pair.amountSats 1000) (InI64 (pair.amountSats * 1000))
      (pair.amountSats * 1000) := computes_i64 _
  have hsub : Computes (subI64 h.total (pair.amountSats * 1000)) (InI64 h.overpay) h.overpay :=
    computes_i64 _
  apply Computes.congr
  · exact hmul.bind (hsub.bind (computes_cost h.overpay fun cost => (h.route, cost)))
  · simp [hamount]

theorem firstHopForward_heard (h : SourceHeard env pair exclude s) (finalHopFeeSats : ℤ) :
    firstHopForward env pair h.requiredCltv finalHopFeeSats h.middle h.afterEdges =
    (do
      let total ← Eff.checked (withForwardingFee h.sourcePolicy h.first.amountMsat)
      let delay ← Eff.checked (addI64 h.first.delay h.sourcePolicy.cltvDelta)
      pure (total, delay) : Route ω String (ℤ × ℤ)) h.afterSource := by
  rw [h.middle_eq]
  exact bind_run h.sourceHeard

theorem firstHopForward_run (h : SourceHeard env pair exclude s) (finalHopFeeSats : ℤ)
    (hforward : h.sourcePolicy.ForwardFits h.first.amountMsat) (hdelay : InI64 h.delay) :
    firstHopForward env pair h.requiredCltv finalHopFeeSats h.middle h.afterEdges =
      (.ok (h.total, h.delay), h.afterSource) := by
  have hsum : Computes (addI64 h.first.delay h.sourcePolicy.cltvDelta) (InI64 h.delay) h.delay :=
    computes_i64 _
  rw [firstHopForward_heard,
    bind_run (checked_run ((computes_withForwardingFee _ _).value hforward) _)]
  exact bind_run (checked_run (hsum.value hdelay) _)

theorem firstHopForward_panics (h : SourceHeard env pair exclude s) (finalHopFeeSats : ℤ)
    (hfits : ¬(h.sourcePolicy.ForwardFits h.first.amountMsat ∧ InI64 h.delay)) :
    (firstHopForward env pair h.requiredCltv finalHopFeeSats h.middle h.afterEdges).1 =
      .panic := by
  have hsum : Computes (addI64 h.first.delay h.sourcePolicy.cltvDelta) (InI64 h.delay) h.delay :=
    computes_i64 _
  rw [firstHopForward_heard]
  by_cases hforward : h.sourcePolicy.ForwardFits h.first.amountMsat
  · rw [bind_run (checked_run ((computes_withForwardingFee _ _).value hforward) _)]
    apply bind_panics
    rw [hsum.missing fun hdelay => hfits ⟨hforward, hdelay⟩]
    rfl
  · apply bind_panics
    rw [(computes_withForwardingFee _ _).missing hforward]
    rfl

theorem priceHops_priced (h : SourceHeard env pair exclude s) (hhop : h.toFinalHopHeard.Fits)
    (hmiddle : RepriceFits h.routeAmount h.edges) (hfits : h.Fits) :
    priceHops env pair h.routeAmount h.policy.feePpm h.policy.feeBaseMsat h.requiredCltv
      (h.best, h.hops) h.afterRoutes = (.ok h.price, h.afterSource) := by
  rw [priceHops_run h.toMiddleHeard hhop hmiddle,
    bind_run (firstHopForward_run h _ hfits.forward hfits.delay)]
  exact bind_run (checked_run
    ((computes_wrapRoute h hhop.fee.amount).value ⟨hfits.overpay, hfits.cost⟩) _)

theorem priceHops_panics_source (h : SourceHeard env pair exclude s)
    (hhop : h.toFinalHopHeard.Fits) (hmiddle : RepriceFits h.routeAmount h.edges)
    (hfits : ¬h.Fits) :
    (priceHops env pair h.routeAmount h.policy.feePpm h.policy.feeBaseMsat h.requiredCltv
      (h.best, h.hops) h.afterRoutes).1 = .panic := by
  rw [priceHops_run h.toMiddleHeard hhop hmiddle]
  by_cases hforward : h.sourcePolicy.ForwardFits h.first.amountMsat ∧ InI64 h.delay
  · rw [bind_run (firstHopForward_run h _ hforward.1 hforward.2)]
    apply bind_panics
    have hwrap := (computes_wrapRoute h hhop.fee.amount).missing fun hwrap =>
      hfits ⟨hforward.1, hforward.2, hwrap.1, hwrap.2⟩
    exact congrArg (fun o => ((Eff.checked o : Route ω String _) h.afterSource).1) hwrap
  · exact bind_panics (firstHopForward_panics h _ hforward)

theorem tryPricePair_panics_source (h : SourceHeard env pair exclude s)
    (hhop : h.toFinalHopHeard.Fits) (hmiddle : RepriceFits h.routeAmount h.edges)
    (hfits : ¬h.Fits) : (tryPricePair env pair exclude s).1 = .panic := by
  rw [tryPricePair_hops h.toMiddleHeard hhop]
  exact asResult_panics (priceHops_panics_source h hhop hmiddle hfits)

theorem tryPricePair_priced (h : SourceHeard env pair exclude s)
    (hhop : h.toFinalHopHeard.Fits) (hmiddle : RepriceFits h.routeAmount h.edges)
    (hfits : h.Fits) : tryPricePair env pair exclude s = (.ok h.price, h.afterSource) := by
  rw [tryPricePair_hops h.toMiddleHeard hhop]
  exact asResult_ok (priceHops_priced h hhop hmiddle hfits)

end Runs

section Returns

variable {ε α β : Type}

def Returns (m : Route ω ε α) : Prop := ∀ s, (m s).1.Returned

omit [SerdeJson]

theorem returns_of_ok {m : Route ω ε α} (h : ∀ s, ∃ a t, m s = (.ok a, t)) : Returns m := by
  intro s
  obtain ⟨a, t, hrun⟩ := h s
  rw [hrun]
  simp [Outcome.Returned]

theorem returns_bind_run {m : Route ω ε α} {f : α → Route ω ε β} (hm : Returns m)
    (hf : ∀ a, Returns (f a)) : Returns (m >>= f) := by
  intro s
  rcases hrun : m s with ⟨r, t⟩
  cases r with
  | ok a =>
    rw [bind_run hrun]
    exact hf a t
  | err e =>
    rw [bind_fails hrun]
    simp [Outcome.Returned]
  | panic => exact absurd (by rw [hrun]) (hm s)

theorem returns_done (a : α) : Returns (pure a : Route ω ε α) :=
  returns_of_ok fun s => ⟨a, s, rfl⟩

theorem returns_throw (e : ε) : Returns (Eff.throw e : Route ω ε α) :=
  fun _ => by simp [Eff.throw, Outcome.Returned]

theorem returns_issue (call : ω → Except RpcFailure α × ω)
    (entry : Except RpcFailure α → RouterCall) :
    Returns (issue call entry : Route ω ε (Except RpcFailure α)) :=
  returns_of_ok fun _ => ⟨_, _, rfl⟩

theorem returns_request (call : ω → Except RpcFailure α × ω)
    (entry : Except RpcFailure α → RouterCall) : Returns (request call entry) := by
  apply returns_bind_run (returns_issue call entry)
  intro reply
  cases reply with
  | ok a => exact returns_done a
  | error e => exact returns_throw e

theorem returns_attempt {ε' : Type} {m : Route ω ε α} (hm : Returns m) :
    Returns (Eff.attempt m : Route ω ε' (Except ε α)) := by
  intro s
  have hs := hm s
  rcases hrun : m s with ⟨r, t⟩
  rw [hrun] at hs
  cases r with
  | panic => exact absurd rfl hs
  | ok a => simp [Eff.attempt, hrun, Outcome.Returned]
  | err e => simp [Eff.attempt, hrun, Outcome.Returned]

theorem returns_updateChannels (env : Env ω) (layerName : String) (scidDirs : List String) :
    Returns (updateChannels env layerName scidDirs) := by
  induction scidDirs with
  | nil => exact returns_done _
  | cons scidDir rest ih => exact returns_bind_run (returns_request _ _) fun _ => ih

theorem returns_buildExcludeLayer (env : Env ω) (entries : List String) :
    Returns (buildExcludeLayer env entries) := by
  apply returns_bind_run
  · exact returns_of_ok fun _ => ⟨_, _, rfl⟩
  · intro layerName
    apply returns_bind_run
    · apply returns_attempt
      exact returns_bind_run (returns_request _ _) fun _ => returns_updateChannels env layerName _
    · intro built
      cases built with
      | ok _ => exact returns_done _
      | error e => exact returns_bind_run (returns_issue _ _) fun _ => returns_throw e

theorem returns_excludeLayer (env : Env ω) (entries : List String) :
    Returns (excludeLayer env entries) := by
  apply returns_bind_run (returns_of_ok fun _ => ⟨_, _, rfl⟩)
  intro cached
  cases cached with
  | some layer => exact returns_done _
  | none =>
    apply returns_bind_run (returns_buildExcludeLayer env entries)
    intro layerName
    exact returns_bind_run (returns_of_ok fun _ => ⟨_, _, rfl⟩) fun _ => returns_done _

theorem returns_probeLayers (env : Env ω) (requested : List String) :
    Returns (probeLayers env requested : Route ω ε (List String)) := by
  apply returns_bind_run (returns_of_ok fun _ => ⟨_, _, rfl⟩)
  intro cached
  cases cached with
  | some live => exact returns_done _
  | none =>
    apply returns_bind_run (returns_issue _ _)
    intro reply
    cases reply with
    | error _ => exact returns_done _
    | ok result =>
        exact returns_bind_run (returns_of_ok fun _ => ⟨_, _, rfl⟩) fun _ => returns_done _

theorem returns_searchLayers (env : Env ω) (pair : PlannedPairCtx) (exclude : List String) :
    Returns (searchLayers env pair exclude) := by
  apply returns_bind_run (returns_probeLayers env _)
  intro live
  by_cases hnone : middleExcludes pair exclude = []
  · simp only [hnone, if_true]
    exact returns_done _
  · simp only [hnone, if_false]
    exact returns_bind_run (returns_excludeLayer env _) fun _ => returns_done _

theorem yields_bind {m : Route ω ε α} {f : α → Route ω ε β} {s : RouterState ω}
    (hm : ∃ a t, m s = (.ok a, t)) (hf : ∀ a t, ∃ b u, f a t = (.ok b, u)) :
    ∃ b u, (m >>= f) s = (.ok b, u) := by
  obtain ⟨a, t, hrun⟩ := hm
  rw [bind_run hrun]
  exact hf a t

theorem getFinalHopPolicy_returns (env : Env ω) (pair : PlannedPairCtx) (s : RouterState ω) :
    ∃ policy t, (getFinalHopPolicy env pair.ourNodeId pair.destPeerId pair.destChannelId :
      Route ω ε _) s = (.ok policy, t) := by
  apply yields_bind (m := issue (env.listpeerchannels pair.destPeerId) _) ⟨_, _, rfl⟩
  intro peers t
  cases peers.toOption >>= fun result =>
    (items (field result "channels")).findSome? (remotePolicy pair.destPeerId pair.destChannelId)
  case some policy => exact ⟨some policy, t, rfl⟩
  case none =>
    by_cases hdest : pair.destChannelId = ""
    · rw [if_pos hdest]
      exact ⟨_, _, rfl⟩
    · rw [if_neg hdest]
      exact yields_bind ⟨_, _, rfl⟩ fun _ _ => ⟨_, _, rfl⟩

theorem destCltv_returns (env : Env ω) (pair : PlannedPairCtx) (policy : ChannelPolicy)
    (s : RouterState ω) :
    ∃ cltv t, (destCltv env pair policy : Route ω ε _) s = (.ok cltv, t) := by
  unfold destCltv
  by_cases hdelta : policy.cltvDelta ≤ 0
  · rw [if_pos hdelta]
    exact yields_bind ⟨_, _, rfl⟩ fun _ _ => ⟨_, _, rfl⟩
  · rw [if_neg hdelta]
    exact ⟨_, _, rfl⟩

theorem removeLayers_returns (env : Env ω) (names : List String) (s : RouterState ω) :
    ∃ t, (removeLayers env names : Route ω ε Unit) s = (.ok (), t) := by
  induction names generalizing s with
  | nil => exact ⟨s, rfl⟩
  | cons name names ih =>
    obtain ⟨t, hrun⟩ := ih (issue (ε := ε) (env.askreneRemoveLayer name) (.removeLayer name) s).2
    exact ⟨t, (bind_run rfl).trans hrun⟩

theorem invalidateLayerCache_returns (env : Env ω) (s : RouterState ω) :
    ∃ t, (invalidateLayerCache env : Route ω ε Unit) s = (.ok (), t) := removeLayers_returns _ _ _

end Returns

section Determined

omit [SerdeJson] in
theorem FinalHopHeard.unique (h k : FinalHopHeard env pair s) : h = k := by
  obtain ⟨policy, cltv, afterPolicy, afterCltv, hpolicy, hcltv⟩ := h
  obtain ⟨policy', cltv', afterPolicy', afterCltv', kpolicy, kcltv⟩ := k
  cases hpolicy.symm.trans kpolicy
  cases hcltv.symm.trans kcltv
  rfl

omit [SerdeJson] in
theorem RoutesHeard.unique (h k : RoutesHeard env pair exclude s) : h = k := by
  obtain ⟨hhop, layers, result, afterLayers, afterRoutes, hlayers, hroutes⟩ := h
  obtain ⟨khop, layers', result', afterLayers', afterRoutes', klayers, kroutes⟩ := k
  obtain rfl := hhop.unique khop
  cases hlayers.symm.trans klayers
  cases hroutes.symm.trans kroutes
  rfl

theorem MiddleHeard.unique (h k : MiddleHeard env pair exclude s) : h = k := by
  obtain ⟨hroutes, best, hops, edges, afterEdges, hchosen, hedges⟩ := h
  obtain ⟨kroutes, best', hops', edges', afterEdges', kchosen, kedges⟩ := k
  obtain rfl := hroutes.unique kroutes
  cases hchosen.symm.trans kchosen
  cases hedges.symm.trans kedges
  rfl

theorem SourceHeard.unique (h k : SourceHeard env pair exclude s) : h = k := by
  obtain ⟨hmiddle, first, later, policy, afterSource, hfirst, hsource⟩ := h
  obtain ⟨kmiddle, first', later', policy', afterSource', kfirst, ksource⟩ := k
  obtain rfl := hmiddle.unique kmiddle
  cases hfirst.symm.trans kfirst
  cases hsource.symm.trans ksource
  rfl

end Determined

structure PricingFits (env : Env ω) (pair : PlannedPairCtx) (exclude : List String)
    (s : RouterState ω) : Prop where
  finalHop : ∀ h : FinalHopHeard env pair s, h.Fits
  routes : ∀ h : RoutesHeard env pair exclude s, ReplyFits h.result
  middle : ∀ h : MiddleHeard env pair exclude s, RepriceFits h.routeAmount h.edges
  source : ∀ h : SourceHeard env pair exclude s, h.Fits

/-- How a call ends: with a price, without one, or on an integer that does not fit. -/
inductive Priced (env : Env ω) (pair : PlannedPairCtx) (exclude : List String)
    (s : RouterState ω) : Outcome RpcFailure RouteResult × RouterState ω → Prop where
  | price (h : SourceHeard env pair exclude s) (hhop : h.toFinalHopHeard.Fits)
      (hmiddle : RepriceFits h.routeAmount h.edges) (hfits : h.Fits) :
      Priced env pair exclude s (.ok h.price, h.afterSource)
  | failed (message : String) (t : RouterState ω) :
      Priced env pair exclude s (.ok (RouteResult.fail message), t)
  | error (e : RpcFailure) (t : RouterState ω) : Priced env pair exclude s (.err e, t)
  | panicked (t : RouterState ω) (hfits : ¬PricingFits env pair exclude s) :
      Priced env pair exclude s (.panic, t)

section Ends

theorem Priced.of_panic {r : Outcome RpcFailure RouteResult × RouterState ω}
    (h : r.1 = .panic) (hfits : ¬PricingFits env pair exclude s) : Priced env pair exclude s r := by
  rcases r with ⟨r, t⟩
  cases h
  exact .panicked t hfits

theorem MiddleHeard.ends (h : MiddleHeard env pair exclude s) (hhop : h.toFinalHopHeard.Fits) :
    Priced env pair exclude s (tryPricePair env pair exclude s) := by
  by_cases hmiddle : RepriceFits h.routeAmount h.edges
  · have hedges : h.edges ≠ [] := by
      intro hnone
      have hhops := lookupEdges_hops h.edgesHeard
      rw [hnone] at hhops
      exact chooseRoute_hops h.chosen hhops.symm
    obtain ⟨edge, edges, hcons⟩ := List.exists_cons_of_ne_nil hedges
    obtain ⟨amountMsat, hhead⟩ := exactReprice_head h.routeAmount edges edge.1 edge.2
    obtain ⟨later, hrepriced⟩ := List.head?_eq_some_iff.mp hhead
    have hfirst : h.middle = { edge.1 with amountMsat := amountMsat } :: later := by
      unfold MiddleHeard.middle
      rw [hcons]
      exact hrepriced
    generalize hhop' : { edge.1 with amountMsat := amountMsat } = first at hfirst
    obtain ⟨policy, t, hsource⟩ := getForwardingPolicy_returns (ε := String) env
      pair.sourcePeerId first.channel first.id h.afterEdges
    cases policy with
    | none =>
      have hforward : firstHopForward env pair h.requiredCltv (h.policy.feeSats pair.amountSats)
          h.middle h.afterEdges =
          (.err ("cannot determine source peer forwarding policy for " ++ first.channel), t) := by
        rw [hfirst]
        exact bind_run hsource
      rw [tryPricePair_hops h hhop, asResult_err ((priceHops_run h hhop hmiddle).trans
        (bind_fails hforward))]
      exact .failed _ _
    | some policy =>
      let source : SourceHeard env pair exclude s :=
        ⟨h, first, later, policy, t, hfirst, hsource⟩
      by_cases hfits : source.Fits
      · rw [tryPricePair_priced source hhop hmiddle hfits]
        exact .price source hhop hmiddle hfits
      · exact .of_panic (tryPricePair_panics_source source hhop hmiddle hfits) fun hall =>
          hfits (hall.source source)
  · exact .of_panic (tryPricePair_panics_middle h hhop hmiddle) fun hall => hmiddle (hall.middle h)

theorem RoutesHeard.ends (h : RoutesHeard env pair exclude s) (hhop : h.toFinalHopHeard.Fits) :
    Priced env pair exclude s (tryPricePair env pair exclude s) := by
  cases hchosen : chooseRoute pair h.result with
  | ok chosen =>
    obtain ⟨best, hops⟩ := chosen
    obtain ⟨edges, t, hedges⟩ := lookupEdges_returns (ε := String) env hops h.afterRoutes
    exact MiddleHeard.ends ⟨h, best, hops, edges, t, hchosen, hedges⟩ hhop
  | err e =>
    have herr : (Eff.ofOutcome (.err e) >>= priceHops env pair h.routeAmount h.policy.feePpm
        h.policy.feeBaseMsat h.requiredCltv) h.afterRoutes = (.err e, h.afterRoutes) := rfl
    rw [tryPricePair_routes h hhop, hchosen, asResult_err herr]
    exact .failed _ _
  | panic =>
    have hreply := (chooseRoute_panics pair h.result).mp hchosen
    exact .of_panic (tryPricePair_panics_routes h hhop hreply) fun hall => hreply (hall.routes h)

theorem FinalHopHeard.ends (h : FinalHopHeard env pair s) :
    Priced env pair exclude s (tryPricePair env pair exclude s) := by
  by_cases hhop : h.Fits
  · rcases hsearch : searchLayers env pair exclude h.afterCltv with ⟨r, t⟩
    cases r with
    | panic =>
      exact absurd (by rw [hsearch]) (returns_searchLayers env pair exclude h.afterCltv)
    | err e =>
      rw [tryPricePair_search h hhop, bind_fails hsearch]
      exact .error e t
    | ok layers =>
      rcases hreply : env.getroutes (h.request layers) t.world with ⟨reply, world⟩
      cases reply with
      | ok result =>
        have hissue : (issue (env.getroutes (h.request layers)) (.getroutes (h.request layers)) :
            Route ω RpcFailure _) t = (.ok (.ok result), { t with
              world := world
              calls := t.calls ++ [.getroutes (h.request layers) (.ok result)] }) := by
          simp only [issue, hreply]
        exact RoutesHeard.ends ⟨h, layers, result, t, _, hsearch, hissue⟩ hhop
      | error e =>
        rw [tryPricePair_search h hhop, bind_run hsearch]
        have hissue : (issue (env.getroutes (h.request layers)) (.getroutes (h.request layers)) :
            Route ω RpcFailure _) t = (.ok (.error e), { t with
              world := world
              calls := t.calls ++ [.getroutes (h.request layers) (.error e)] }) := by
          simp only [issue, hreply]
        rw [show pricePairInner env pair h.routeAmount h.policy.feePpm h.policy.feeBaseMsat
          h.requiredCltv layers t = _ from bind_run hissue]
        by_cases hunknown : translateGetroutesError e.message = reasonUnknownLayer
        · obtain ⟨u, hinvalidate⟩ := invalidateLayerCache_returns (ε := RpcFailure) env { t with
            world := world
            calls := t.calls ++ [.getroutes (h.request layers) (.error e)] }
          simp only [hunknown, if_true]
          rw [bind_run hinvalidate]
          exact .failed _ _
        · simp only [hunknown, if_false]
          exact .failed _ _
  · exact .of_panic (tryPricePair_panics_finalHop h hhop) fun hall => hhop (hall.finalHop h)

theorem tryPricePair_ends (env : Env ω) (pair : PlannedPairCtx) (exclude : List String)
    (s : RouterState ω) : Priced env pair exclude s (tryPricePair env pair exclude s) := by
  obtain ⟨policy, t, hpolicy⟩ := getFinalHopPolicy_returns (ε := RpcFailure) env pair s
  cases policy with
  | none =>
    rw [show tryPricePair env pair exclude s = _ from bind_run hpolicy]
    exact .failed _ _
  | some policy =>
    obtain ⟨cltv, u, hcltv⟩ := destCltv_returns (ε := RpcFailure) env pair policy t
    exact FinalHopHeard.ends ⟨policy, cltv, t, u, hpolicy, hcltv⟩

theorem tryPricePair_returns_iff : (tryPricePair env pair exclude s).1.Returned ↔
    PricingFits env pair exclude s := by
  constructor
  · intro hreturned
    have hhop : ∀ h : FinalHopHeard env pair s, h.Fits := fun h =>
      by_contra fun hfits => hreturned (tryPricePair_panics_finalHop h hfits)
    have hmiddle : ∀ h : MiddleHeard env pair exclude s, RepriceFits h.routeAmount h.edges :=
      fun h => by_contra fun hfits =>
        hreturned (tryPricePair_panics_middle h (hhop h.toFinalHopHeard) hfits)
    constructor
    · exact hhop
    · intro h
      by_contra hfits
      exact hreturned (tryPricePair_panics_routes h (hhop h.toFinalHopHeard) hfits)
    · exact hmiddle
    · intro h
      by_contra hfits
      exact hreturned (tryPricePair_panics_source h (hhop h.toFinalHopHeard)
        (hmiddle h.toMiddleHeard) hfits)
  · intro hfits hpanic
    have hends := tryPricePair_ends env pair exclude s
    rcases hrun : tryPricePair env pair exclude s with ⟨r, t⟩
    rw [hrun] at hends hpanic
    cases hends with
    | panicked _ hmisfit => exact hmisfit hfits
    | _ => cases hpanic

end Ends

end CycleRouter
