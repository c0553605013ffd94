import RevenueOps.CycleRouter

/-! What one pricing call hears from the node, stage by stage, and the route that these replies
make in unbounded integers. Each stage says which of its integers the code keeps in an i64. -/
namespace CycleRouter

open FallibleState JsonValue RustNumber
open RouteExecutor (SendpayHop RpcFailure)

section Exact

/-- The quotient of ceil_div. -/
def exactCeil (a b : ℤ) : ℤ := (a + b - 1).tdiv b

def CeilFits (a b : ℤ) : Prop := InI64 (a + b) ∧ InI64 (a + b - 1)

theorem computes_ceilDiv (a b : ℤ) : Computes (ceilDiv a b) (CeilFits a b) (exactCeil a b) := by
  have htop : Computes (subI64 (a + b) 1 >>= fun top => pure (top.tdiv b))
      (InI64 (a + b - 1) ∧ True) (exactCeil a b) := (computes_i64 _).bind (computes_pure _)
  exact ((computes_i64 _).bind htop).congr (by simp [CeilFits])

def ChannelPolicy.fee (policy : ChannelPolicy) (amountMsat : ℤ) : ℤ :=
  policy.feeBaseMsat + exactCeil (amountMsat * policy.feePpm) 1000000

structure ChannelPolicy.FeeFits (policy : ChannelPolicy) (amountMsat : ℤ) : Prop where
  scaled : InI64 (amountMsat * policy.feePpm)
  ceil : CeilFits (amountMsat * policy.feePpm) 1000000
  fee : InI64 (policy.fee amountMsat)

structure ChannelPolicy.ForwardFits (policy : ChannelPolicy) (amountMsat : ℤ) : Prop where
  fee : policy.FeeFits amountMsat
  total : InI64 (amountMsat + policy.fee amountMsat)

theorem computes_withForwardingFee (policy : ChannelPolicy) (amountMsat : ℤ) :
    Computes (withForwardingFee policy amountMsat) (policy.ForwardFits amountMsat)
      (amountMsat + policy.fee amountMsat) := by
  apply Computes.congr
  · exact (computes_i64 _).bind ((computes_ceilDiv _ _).bind
      ((computes_i64 _).bind (computes_i64 _)))
  · constructor
    · rintro ⟨hscaled, hceil, hfee, htotal⟩
      exact ⟨⟨hscaled, hceil, hfee⟩, htotal⟩
    · intro h
      exact ⟨h.fee.scaled, h.fee.ceil, h.fee.fee, h.total⟩

def ChannelPolicy.feeSats (policy : ChannelPolicy) (amountSats : ℤ) : ℤ :=
  exactCeil (policy.fee (amountSats * 1000)) 1000

structure ChannelPolicy.FeeSatsFits (policy : ChannelPolicy) (amountSats : ℤ) : Prop where
  amount : InI64 (amountSats * 1000)
  fee : policy.FeeFits (amountSats * 1000)
  ceil : CeilFits (policy.fee (amountSats * 1000)) 1000

theorem computes_computeFinalHopFeeSats (policy : ChannelPolicy) (amountSats : ℤ) :
    Computes (computeFinalHopFeeSats amountSats policy.feePpm policy.feeBaseMsat)
      (policy.FeeSatsFits amountSats) (policy.feeSats amountSats) := by
  apply Computes.congr
  · exact (computes_i64 _).bind ((computes_i64 _).bind ((computes_ceilDiv _ _).bind
      ((computes_i64 _).bind (computes_ceilDiv _ _))))
  · constructor
    · rintro ⟨hamount, hscaled, hprop, hfee, hceil⟩
      exact ⟨hamount, ⟨hscaled, hprop, hfee⟩, hceil⟩
    · intro h
      exact ⟨h.amount, h.fee.scaled, h.fee.ceil, h.fee.fee, h.ceil⟩

def grossMsat (amountSats feeSats : ℤ) : ℤ := (amountSats + feeSats) * 1000

def GrossFits (amountSats feeSats : ℤ) : Prop :=
  InI64 (amountSats + feeSats) ∧ InI64 (grossMsat amountSats feeSats)

theorem computes_gross (amountSats feeSats : ℤ) :
    Computes (addI64 amountSats feeSats >>= fun x => mulI64 x 1000)
      (GrossFits amountSats feeSats) (grossMsat amountSats feeSats) :=
  (computes_i64 _).bind (computes_i64 _)

end Exact

section Middle

variable {ω ε : Type} [SerdeJson]

/-- The middle hops with the policies looked up for them, in the order of repricing. The last hop
needs none. -/
def lookupEdges (env : Env ω) :
    List SendpayHop → Route ω ε (List (SendpayHop × Option ChannelPolicy))
  | [] => pure []
  | hop :: rest => do
    let edges ← lookupEdges env rest
    match rest with
    | [] => pure [(hop, none)]
    | next :: _ => do
      let policy ← getForwardingPolicy env hop.id next.channel next.id
      pure ((hop, policy) :: edges)

/-- The amount that a hop receives to forward an amount. -/
def received (hop : SendpayHop) (forwardedMsat : ℤ) : Option ChannelPolicy → ℤ
  | none => hop.amountMsat
  | some policy => forwardedMsat + policy.fee forwardedMsat

def exactReprice (finalAmountMsat : ℤ) :
    List (SendpayHop × Option ChannelPolicy) → List SendpayHop
  | [] => []
  | (hop, policy) :: edges =>
    match exactReprice finalAmountMsat edges with
    | [] => [{ hop with amountMsat := finalAmountMsat }]
    | outgoing :: later =>
      { hop with amountMsat := received hop outgoing.amountMsat policy } :: outgoing :: later

def RepriceFits (finalAmountMsat : ℤ) : List (SendpayHop × Option ChannelPolicy) → Prop
  | [] => True
  | (_, policy) :: edges => RepriceFits finalAmountMsat edges ∧
    ∀ p ∈ policy, ∀ outgoing ∈ (exactReprice finalAmountMsat edges).head?,
      p.ForwardFits outgoing.amountMsat

variable {env : Env ω} {hops : List SendpayHop}
  {edges : List (SendpayHop × Option ChannelPolicy)} {s t : RouterState ω} {finalAmountMsat : ℤ}

theorem getForwardingPolicy_returns (env : Env ω) (sourceNodeId channelId nextNodeId : String)
    (s : RouterState ω) : ∃ policy t,
      (getForwardingPolicy env sourceNodeId channelId nextNodeId : Route ω ε _) s =
        (.ok policy, t) := by
  by_cases hblank : channelId = "" ∨ nextNodeId = ""
  · exact ⟨none, s, by simp only [getForwardingPolicy, if_pos hblank]; rfl⟩
  · simp only [getForwardingPolicy, if_neg hblank]
    exact ⟨_, _, bind_run rfl⟩

theorem lookupEdges_returns (env : Env ω) (hops : List SendpayHop) (s : RouterState ω) :
    ∃ edges t, (lookupEdges env hops : Route ω ε _) s = (.ok edges, t) := by
  induction hops with
  | nil => exact ⟨[], s, rfl⟩
  | cons hop rest ih =>
    obtain ⟨edges, t, hrest⟩ := ih
    cases rest with
    | nil => exact ⟨[(hop, none)], t, bind_run hrest⟩
    | cons next rest =>
      obtain ⟨policy, u, hpolicy⟩ :=
        getForwardingPolicy_returns (ε := ε) env hop.id next.channel next.id t
      exact ⟨(hop, policy) :: edges, u, (bind_run hrest).trans (bind_run hpolicy)⟩

theorem lookupEdges_cons {hop next : SendpayHop} {rest : List SendpayHop}
    (h : (lookupEdges env (hop :: next :: rest) : Route ω ε _) s = (.ok edges, t)) :
    ∃ later u policy, (lookupEdges env (next :: rest) : Route ω ε _) s = (.ok later, u) ∧
      (getForwardingPolicy env hop.id next.channel next.id : Route ω ε _) u = (.ok policy, t) ∧
      edges = (hop, policy) :: later := by
  obtain ⟨later, u, hrest⟩ := lookupEdges_returns (ε := ε) env (next :: rest) s
  obtain ⟨policy, v, hpolicy⟩ :=
    getForwardingPolicy_returns (ε := ε) env hop.id next.channel next.id u
  have hrun : (lookupEdges env (hop :: next :: rest) : Route ω ε _) s =
      (.ok ((hop, policy) :: later), v) := (bind_run hrest).trans (bind_run hpolicy)
  rw [hrun] at h
  cases h
  exact ⟨later, u, policy, hrest, hpolicy, rfl⟩

theorem lookupEdges_hops (h : (lookupEdges env hops : Route ω ε _) s = (.ok edges, t)) :
    edges.map Prod.fst = hops := by
  induction hops generalizing edges t with
  | nil =>
    cases h
    rfl
  | cons hop rest ih =>
    cases rest with
    | nil =>
      cases h
      rfl
    | cons next rest =>
      obtain ⟨later, u, policy, hrest, -, rfl⟩ := lookupEdges_cons h
      rw [List.map_cons, ih hrest]

omit [SerdeJson] in
theorem exactReprice_head (finalAmountMsat : ℤ)
    (edges : List (SendpayHop × Option ChannelPolicy)) (hop : SendpayHop)
    (policy : Option ChannelPolicy) :
    ∃ amountMsat, (exactReprice finalAmountMsat ((hop, policy) :: edges)).head? =
      some { hop with amountMsat := amountMsat } := by
  cases h : exactReprice finalAmountMsat edges with
  | nil => exact ⟨finalAmountMsat, by simp [exactReprice, h]⟩
  | cons outgoing later =>
    exact ⟨received hop outgoing.amountMsat policy, by simp [exactReprice, h]⟩

/-- The hop behind the lookups, as the repriced list begins with it. -/
theorem repriced_next (finalAmountMsat : ℤ) {next : SendpayHop} {rest : List SendpayHop}
    (h : (lookupEdges env (next :: rest) : Route ω ε _) s = (.ok edges, t)) :
    ∃ outgoing later, exactReprice finalAmountMsat edges = outgoing :: later ∧
      outgoing.channel = next.channel ∧ outgoing.id = next.id := by
  cases edges with
  | nil => exact absurd (lookupEdges_hops h) (by simp)
  | cons edge later =>
    have hhop := List.head_eq_of_cons_eq (lookupEdges_hops h)
    obtain ⟨amountMsat, hhead⟩ :=
      exactReprice_head finalAmountMsat later edge.1 edge.2
    obtain ⟨tail, htail⟩ := List.head?_eq_some_iff.mp hhead
    exact ⟨_, tail, htail, by rw [← hhop], by rw [← hhop]⟩

theorem reprice_run (h : (lookupEdges env hops : Route ω ε _) s = (.ok edges, t))
    (hfits : RepriceFits finalAmountMsat edges) :
    (repriceMiddleRouteAmounts env finalAmountMsat hops : Route ω ε _) s =
      (.ok (exactReprice finalAmountMsat edges), t) := by
  induction hops generalizing edges t with
  | nil =>
    cases h
    rfl
  | cons hop rest ih =>
    cases rest with
    | nil =>
      cases h
      rfl
    | cons next rest =>
      obtain ⟨later, u, policy, hrest, hpolicy, rfl⟩ := lookupEdges_cons h
      obtain ⟨outgoing, tail, hrepriced, hchannel, hid⟩ :=
        repriced_next finalAmountMsat hrest
      apply (bind_run (ih hrest hfits.1)).trans
      simp only [hrepriced, exactReprice]
      rw [← hchannel, ← hid] at hpolicy
      apply (bind_run hpolicy).trans
      cases policy with
      | none => rfl
      | some p =>
        have hforward := hfits.2 p rfl outgoing (by rw [hrepriced]; rfl)
        exact bind_run (checked_run ((computes_withForwardingFee p _).value hforward) t)

theorem reprice_panics (h : (lookupEdges env hops : Route ω ε _) s = (.ok edges, t))
    (hfits : ¬RepriceFits finalAmountMsat edges) :
    ((repriceMiddleRouteAmounts env finalAmountMsat hops : Route ω ε _) s).1 = .panic := by
  induction hops generalizing edges t with
  | nil =>
    cases h
    exact absurd trivial hfits
  | cons hop rest ih =>
    cases rest with
    | nil =>
      cases h
      exact absurd ⟨trivial, fun p hp => by cases hp⟩ hfits
    | cons next rest =>
      obtain ⟨later, u, policy, hrest, hpolicy, rfl⟩ := lookupEdges_cons h
      by_cases hlater : RepriceFits finalAmountMsat later
      · obtain ⟨outgoing, tail, hrepriced, hchannel, hid⟩ :=
          repriced_next finalAmountMsat hrest
        rw [show repriceMiddleRouteAmounts env finalAmountMsat (hop :: next :: rest) s = _ from
          bind_run (reprice_run hrest hlater)]
        simp only [hrepriced]
        rw [← hchannel, ← hid] at hpolicy
        rw [bind_run hpolicy]
        cases policy with
        | none => exact absurd ⟨hlater, fun p hp => by cases hp⟩ hfits
        | some p =>
          apply bind_panics
          rw [(computes_withForwardingFee p _).missing]
          · rfl
          · intro hforward
            apply hfits
            refine ⟨hlater, ?_⟩
            rintro q ⟨⟩ o ho
            rw [hrepriced] at ho
            cases ho
            exact hforward
      · exact bind_panics (ih hrest hlater)

end Middle

section Choice

variable [SerdeJson]

/-- The two amounts whose difference is the fee of a route; none where the path is empty. -/
def routeTerms (route : Json) : Except String (Option (ℤ × ℤ)) :=
  match items (field route "path") with
  | [] => .ok none
  | first :: _ => do
    let firstAmt ← parseMsat (field first "amount_msat")
    let delivered ← parseMsat (field route "amount_msat")
    pure (some (firstAmt, delivered))

/-- The differences that are formed, up to the first route whose amounts do not parse. -/
def RoutesFit : List Json → Prop
  | [] => True
  | route :: routes => ∀ terms, routeTerms route = .ok terms →
    (∀ p ∈ terms, InI64 (p.1 - p.2)) ∧ RoutesFit routes

theorem routeFeeMsat_eq (route : Json) : routeFeeMsat route =
    match routeTerms route with
    | .error e => .err e
    | .ok none => .ok emptyPathFeeSentinel
    | .ok (some p) => .checked (subI64 p.1 p.2) >>= fun fee => pure (max fee 0) := by
  unfold routeFeeMsat routeTerms
  cases items (field route "path") with
  | nil => rfl
  | cons first rest =>
    cases hfirst : parseMsat (field first "amount_msat") with
    | error e => simp only [hfirst]; rfl
    | ok a =>
      cases hdelivered : parseMsat (field route "amount_msat") with
      | error e => simp only [hfirst]; rfl
      | ok d => simp only [hfirst]; rfl

/-- What a route's fee comes to: unreadable, a fee, or a difference out of range. -/
theorem routeFeeMsat_cases (route : Json) :
    (∃ e, routeTerms route = .error e ∧ routeFeeMsat route = .err e) ∨
    (∃ terms fee, routeTerms route = .ok terms ∧ (∀ p ∈ terms, InI64 (p.1 - p.2)) ∧
      routeFeeMsat route = .ok fee) ∨
    (∃ p, routeTerms route = .ok (some p) ∧ ¬InI64 (p.1 - p.2) ∧
      routeFeeMsat route = .panic) := by
  rw [routeFeeMsat_eq]
  cases hterms : routeTerms route with
  | error e => exact .inl ⟨e, rfl, rfl⟩
  | ok terms =>
    cases terms with
    | none => exact .inr (.inl ⟨none, emptyPathFeeSentinel, rfl, by simp, rfl⟩)
    | some p =>
      have hsub : Computes (subI64 p.1 p.2) (InI64 (p.1 - p.2)) (p.1 - p.2) := computes_i64 _
      by_cases hfits : InI64 (p.1 - p.2)
      · refine .inr (.inl ⟨some p, max (p.1 - p.2) 0, rfl, ?_, ?_⟩)
        · rintro q ⟨⟩
          exact hfits
        · simp only [hsub.value hfits]
          rfl
      · refine .inr (.inr ⟨p, rfl, hfits, ?_⟩)
        simp only [hsub.missing hfits]
        rfl

theorem cheapestAfter_panics (best : Json × ℤ) (routes : List Json) :
    cheapestAfter best routes = .panic ↔ ¬RoutesFit routes := by
  induction routes generalizing best with
  | nil => simp [cheapestAfter, RoutesFit]
  | cons route routes ih =>
    rcases routeFeeMsat_cases route with ⟨e, hterms, hfee⟩ | ⟨terms, fee, hterms, hfits, hfee⟩ |
      ⟨p, hterms, hfits, hfee⟩
    · rw [cheapestAfter, hfee]
      simp [RoutesFit, hterms, bind, Outcome.bind]
    · rw [cheapestAfter, hfee]
      change cheapestAfter (if fee < best.2 then (route, fee) else best) routes = .panic ↔ _
      rw [ih]
      simp only [RoutesFit, hterms]
      grind
    · rw [cheapestAfter, hfee]
      exact iff_of_true rfl fun h => hfits ((h _ hterms).1 p rfl)

theorem cheapest_panics (route : Json) (routes : List Json) :
    cheapest route routes = .panic ↔ ¬RoutesFit (route :: routes) := by
  rcases routeFeeMsat_cases route with ⟨e, hterms, hfee⟩ | ⟨terms, fee, hterms, hfits, hfee⟩ |
    ⟨p, hterms, hfits, hfee⟩
  · rw [cheapest, hfee]
    simp [RoutesFit, hterms, bind, Outcome.bind]
  · rw [cheapest, hfee]
    change cheapestAfter (route, fee) routes = .panic ↔ _
    rw [cheapestAfter_panics]
    simp only [RoutesFit, hterms]
    grind
  · rw [cheapest, hfee]
    exact iff_of_true rfl fun h => hfits ((h _ hterms).1 p rfl)

/-- The cheapest route and its hops, or the message of the failed result. -/
def chooseRoute (pair : PlannedPairCtx) (result : Json) : Outcome String (Json × List SendpayHop) :=
  match result.get "routes" with
  | some (.arr (route :: routes)) => do
    let best ← cheapest route routes
    let middlePath := items (field best "path")
    if validateMiddlePath middlePath pair.ourNodeId pair.destPeerId = false then
      .err (reasonPathLoopsThroughUs ++ ": middle path invalid")
    else do
      let hops ← .ofExcept (middlePath.mapM translateHopToSendpay)
      pure (best, hops)
  | _ => .err (noRoute ++ ": getroutes returned empty")

def ReplyFits (result : Json) : Prop :=
  ∀ routes, result.get "routes" = some (.arr routes) → RoutesFit routes

theorem chooseRoute_panics (pair : PlannedPairCtx) (result : Json) :
    chooseRoute pair result = .panic ↔ ¬ReplyFits result := by
  unfold chooseRoute ReplyFits
  split
  · rename_i route routes hroutes
    simp only [hroutes, Option.some.injEq, Json.arr.injEq, forall_eq']
    rw [← cheapest_panics]
    cases cheapest route routes with
    | ok best =>
      change (if _ then _ else _) = _ ↔ _
      by_cases hvalid : validateMiddlePath (items (field best "path")) pair.ourNodeId
          pair.destPeerId = false
      · simp [hvalid]
      · rw [if_neg hvalid]
        cases (items (field best "path")).mapM translateHopToSendpay with
        | ok hops => simp [Outcome.ofExcept, bind, Outcome.bind, pure]
        | error e => simp [Outcome.ofExcept, bind, Outcome.bind]
    | err e => simp [bind, Outcome.bind]
    | panic => simp [bind, Outcome.bind]
  · rename_i hroutes
    simp only [reduceCtorEq, false_iff, not_not]
    intro routes h
    cases routes with
    | nil => trivial
    | cons route routes => exact absurd h (hroutes route routes)

theorem chooseRoute_hops {pair : PlannedPairCtx} {result best : Json} {hops : List SendpayHop}
    (h : chooseRoute pair result = .ok (best, hops)) : hops ≠ [] := by
  unfold chooseRoute at h
  split at h
  · obtain ⟨chosen, -, h⟩ := Outcome.bind_eq_ok.mp h
    by_cases hvalid : validateMiddlePath (items (field chosen "path")) pair.ourNodeId
        pair.destPeerId = false
    · simp [hvalid] at h
    · simp only [hvalid] at h
      obtain ⟨translated, htranslated, h⟩ := Outcome.bind_eq_ok.mp h
      rw [Outcome.ofExcept_eq_ok] at htranslated
      obtain ⟨-, rfl⟩ := Prod.mk.inj (Outcome.pure_eq_ok.mp h)
      rintro rfl
      cases hpath : items (field chosen "path") with
      | nil => simp [hpath, validateMiddlePath] at hvalid
      | cons hop path =>
        rw [hpath, List.mapM_cons] at htranslated
        cases hhop : translateHopToSendpay hop <;>
          cases hlater : path.mapM translateHopToSendpay <;>
          simp [hhop, hlater, bind, Except.bind, pure, Except.pure] at htranslated
  · cases h

end Choice

end CycleRouter
