import RevenueOps.RouteAcceptance

/-! Where pricing leaves the range of an i64 on policies that gossip can carry. -/
namespace CycleRouter

open FallibleState JsonValue RustNumber
open RouteExecutor (SendpayHop RpcFailure)

/-- The default of rebalance_max_amount. -/
def rebalanceMaxAmount : ℤ := 5000000

def InU32 (x : ℤ) : Prop := 0 ≤ x ∧ x ≤ 4294967295

instance (x : ℤ) : Decidable (InU32 x) := inferInstanceAs (Decidable (_ ∧ _))

structure ChannelPolicy.Gossiped (policy : ChannelPolicy) : Prop where
  feePpm : InU32 policy.feePpm
  feeBaseMsat : InU32 policy.feeBaseMsat
  cltvDelta : InU32 policy.cltvDelta

/-- The forwarded amount times the rate leaves room for the rounding, and the amount with its fee
fits. -/
structure ChannelPolicy.Carries (policy : ChannelPolicy) (amountMsat : ℤ) : Prop where
  product : InI64 (amountMsat * policy.feePpm)
  room : amountMsat * policy.feePpm ≤ 9223372036854775807 - 1000000
  total : InI64 (amountMsat + policy.fee amountMsat)

section Bounds

variable {policy : ChannelPolicy}

theorem ceilFits_of_room {x : ℤ} (h : InI64 x) (hroom : x ≤ 9223372036854775807 - 1000000) :
    CeilFits x 1000000 := by
  unfold CeilFits InI64 at *
  omega

theorem exactCeil_near (a : ℤ) {b : ℤ} (hb : 0 < b) :
    a - 1 < b * exactCeil a b ∧ b * exactCeil a b ≤ a + 2 * b - 2 := by
  have hdiv := Int.mul_tdiv_add_tmod (a + b - 1) b
  have hlow := Int.lt_tmod_of_pos (a + b - 1) hb
  have hhigh := Int.tmod_lt_of_pos (a + b - 1) hb
  unfold exactCeil
  omega

theorem exactCeil_bounds {x : ℤ} (h : InI64 x) :
    -9223372036856 ≤ exactCeil x 1000000 ∧ exactCeil x 1000000 ≤ 9223372036856 := by
  have hnear := exactCeil_near x (b := 1000000) (by norm_num)
  unfold InI64 at h
  omega

theorem forwardFits_iff (h : policy.Gossiped) (x : ℤ) :
    policy.ForwardFits x ↔ policy.Carries x := by
  constructor
  · intro hfits
    have hceil := hfits.fee.ceil
    refine ⟨hfits.fee.scaled, ?_, hfits.total⟩
    unfold CeilFits InI64 at hceil
    omega
  · intro hcarries
    refine ⟨⟨hcarries.product, ceilFits_of_room hcarries.product hcarries.room, ?_⟩,
      hcarries.total⟩
    have hbase := h.feeBaseMsat
    have hceil := exactCeil_bounds hcarries.product
    unfold ChannelPolicy.fee InI64 InU32 at *
    omega

/-- On a gossiped policy the final hop fits exactly where its product leaves the room. -/
theorem feeSatsFits_iff (h : policy.Gossiped) {amountSats : ℤ}
    (hamount : 1 ≤ amountSats ∧ amountSats ≤ rebalanceMaxAmount) :
    policy.FeeSatsFits amountSats ∧ GrossFits amountSats (policy.feeSats amountSats) ↔
      amountSats * 1000 * policy.feePpm ≤ 9223372036854775807 - 1000000 := by
  have hbase := h.feeBaseMsat
  unfold rebalanceMaxAmount at hamount
  constructor
  · rintro ⟨hfits, -⟩
    have hceil := hfits.fee.ceil
    unfold CeilFits InI64 at hceil
    omega
  · intro hroom
    have hproduct : 0 ≤ amountSats * 1000 * policy.feePpm :=
      mul_nonneg (by omega) h.feePpm.1
    have hin : InI64 (amountSats * 1000 * policy.feePpm) := by
      unfold InI64
      omega
    have hceil := exactCeil_bounds hin
    have hlow := exactCeil_near (amountSats * 1000 * policy.feePpm) (b := 1000000) (by norm_num)
    have hfee : 0 ≤ policy.fee (amountSats * 1000) ∧
        policy.fee (amountSats * 1000) ≤ 9227667004152 := by
      unfold ChannelPolicy.fee InU32 at *
      omega
    have hsats : 0 ≤ policy.feeSats amountSats ∧ policy.feeSats amountSats ≤ 9227667006 := by
      have hnear := exactCeil_near (policy.fee (amountSats * 1000)) (b := 1000) (by norm_num)
      unfold ChannelPolicy.feeSats
      omega
    constructor
    · constructor
      · unfold InI64
        omega
      · constructor
        · exact hin
        · exact ceilFits_of_room hin hroom
        · unfold InI64
          omega
      · unfold CeilFits InI64
        omega
    · unfold GrossFits grossMsat InI64
      omega

end Bounds

section Delays

variable [SerdeJson]

theorem translateHop_delay {hop : Json} {sent : SendpayHop}
    (h : translateHopToSendpay hop = .ok sent) : (sent.delay : ℤ) ≤ 4294967295 := by
  obtain ⟨scidd, -, h⟩ := except_bind_eq_ok h
  obtain ⟨⟨scid, directionText⟩, -, h⟩ := except_bind_eq_ok h
  obtain ⟨direction, -, h⟩ := except_bind_eq_ok h
  obtain ⟨id, -, h⟩ := except_bind_eq_ok h
  obtain ⟨amountMsat, -, h⟩ := except_bind_eq_ok h
  obtain ⟨delay, hdelay, h⟩ := except_bind_eq_ok h
  cases hread : (field hop "delay").asI64.filter fun d => 0 ≤ d ∧ d ≤ 4294967295 with
  | none =>
    rw [hread] at hdelay
    cases hdelay
  | some d =>
    rw [hread] at hdelay
    cases hdelay
    cases h
    have hrange := (Option.filter_eq_some_iff.mp hread).2
    simp only [decide_eq_true_eq] at hrange
    simp only []
    omega

theorem translateHops_delay {path : List Json} {hops : List SendpayHop}
    (h : path.mapM translateHopToSendpay = .ok hops) :
    ∀ hop ∈ hops, (hop.delay : ℤ) ≤ 4294967295 := by
  induction path generalizing hops with
  | nil =>
    cases h
    exact fun hop hmem => (List.not_mem_nil hmem).elim
  | cons step path ih =>
    rw [List.mapM_cons] at h
    obtain ⟨sent, hsent, h⟩ := except_bind_eq_ok h
    obtain ⟨rest, hrest, h⟩ := except_bind_eq_ok h
    cases h
    intro hop hmem
    rcases List.mem_cons.mp hmem with rfl | hmem
    · exact translateHop_delay hsent
    · exact ih hrest hop hmem

theorem chooseRoute_delay {pair : PlannedPairCtx} {result best : Json} {hops : List SendpayHop}
    (h : chooseRoute pair result = .ok (best, hops)) :
    ∀ hop ∈ hops, (hop.delay : ℤ) ≤ 4294967295 := by
  unfold chooseRoute at h
  split at h
  · obtain ⟨chosen, -, h⟩ := Outcome.bind_eq_ok.mp h
    by_cases hvalid : validateMiddlePath (items (field chosen "path")) pair.ourNodeId
        pair.destPeerId = false
    · simp [hvalid] at h
    · simp only [hvalid] at h
      obtain ⟨translated, htranslated, h⟩ := Outcome.bind_eq_ok.mp h
      rw [Outcome.ofExcept_eq_ok] at htranslated
      obtain ⟨-, rfl⟩ := Prod.mk.inj (Outcome.pure_eq_ok.mp h)
      exact translateHops_delay htranslated
  · cases h

end Delays

section Script

variable {ω ε : Type} [SerdeJson] {env : Env ω} {pair : PlannedPairCtx} {exclude : List String}
  {s : RouterState ω}

theorem SourceHeard.first_delay (h : SourceHeard env pair exclude s) :
    (h.first.delay : ℤ) ≤ 4294967295 := by
  obtain ⟨edge, edges, hcons⟩ := List.exists_cons_of_ne_nil h.edges_ne_nil
  obtain ⟨amountMsat, hhead⟩ := exactReprice_head h.routeAmount edges edge.1 edge.2
  have hmiddle : exactReprice h.routeAmount h.edges = h.first :: h.later := h.middle_eq
  rw [hcons] at hmiddle
  rw [hmiddle, List.head?_cons, Option.some.injEq] at hhead
  have hhops := lookupEdges_hops h.edgesHeard
  rw [hcons, List.map_cons] at hhops
  rw [hhead]
  exact chooseRoute_delay h.chosen edge.1 (by rw [← hhops]; exact List.mem_cons_self)

/-- Every policy and delay that the call hears is one that gossip can carry. -/
structure GossipScript (env : Env ω) (pair : PlannedPairCtx) (exclude : List String)
    (s : RouterState ω) : Prop where
  finalHop : ∀ h : FinalHopHeard env pair s, h.policy.Gossiped ∧ InU32 h.destCltv
  middle : ∀ h : MiddleHeard env pair exclude s, ∀ edge ∈ h.edges, ∀ policy ∈ edge.2,
    policy.Gossiped
  source : ∀ h : SourceHeard env pair exclude s, h.sourcePolicy.Gossiped

structure PricingBounded (env : Env ω) (pair : PlannedPairCtx) (exclude : List String)
    (s : RouterState ω) : Prop where
  finalHop : ∀ h : FinalHopHeard env pair s,
    pair.amountSats * 1000 * h.policy.feePpm ≤ 9223372036854775807 - 1000000
  cltv : ∀ h : FinalHopHeard env pair s, InI64 (h.destCltv + pair.invoiceFinalCltv)
  routes : ∀ h : RoutesHeard env pair exclude s, ReplyFits h.result
  middle : ∀ h : MiddleHeard env pair exclude s,
    (h.middle.zip (h.edges.map Prod.snd)).IsChain fun a b =>
      ∀ policy ∈ a.2, policy.Carries b.1.amountMsat
  source : ∀ h : SourceHeard env pair exclude s,
    h.sourcePolicy.Carries h.first.amountMsat ∧
      InI64 (h.first.amountMsat + h.sourcePolicy.fee h.first.amountMsat - pair.amountSats * 1000)

omit [SerdeJson] in
theorem repriceFits_iff {finalAmountMsat : ℤ} {edges : List (SendpayHop × Option ChannelPolicy)}
    (hgossip : ∀ edge ∈ edges, ∀ policy ∈ edge.2, policy.Gossiped)
    (hlast : ∀ edge ∈ edges.getLast?, edge.2 = none) :
    RepriceFits finalAmountMsat edges ↔
      ((exactReprice finalAmountMsat edges).zip (edges.map Prod.snd)).IsChain fun a b =>
        ∀ policy ∈ a.2, policy.Carries b.1.amountMsat := by
  induction edges with
  | nil => exact iff_of_true trivial .nil
  | cons edge edges ih =>
    by_cases hrest : edges = []
    · subst hrest
      have hnone : edge.2 = none := hlast edge rfl
      refine iff_of_true ⟨trivial, ?_⟩ (.singleton _)
      rw [hnone]
      simp
    · obtain ⟨outgoing, later, hcons⟩ := exactReprice_ne_nil finalAmountMsat hrest
      obtain ⟨next, rest, rfl⟩ := List.exists_cons_of_ne_nil hrest
      have hih := ih (fun e he => hgossip e (List.mem_cons_of_mem _ he)) (by
        rwa [List.getLast?_cons_cons] at hlast)
      rw [hcons] at hih
      unfold RepriceFits
      rw [exactReprice_cons hcons, List.map_cons, List.zip_cons_cons]
      rw [List.map_cons, List.zip_cons_cons] at hih ⊢
      rw [List.isChain_cons_cons, hih, and_comm]
      apply and_congr_left
      intro _
      have hhead : ∀ p ∈ edge.2, (∀ o ∈ (exactReprice finalAmountMsat (next :: rest)).head?,
          p.ForwardFits o.amountMsat) ↔ p.Carries outgoing.amountMsat := by
        intro p hp
        rw [hcons]
        simp only [List.head?_cons, Option.mem_def, Option.some.injEq, forall_eq']
        exact forwardFits_iff (hgossip edge List.mem_cons_self p hp) _
      exact ⟨fun h p hp => (hhead p hp).mp (h p hp), fun h p hp => (hhead p hp).mpr (h p hp)⟩

/-- Only the last of the looked-up hops goes without a lookup. -/
theorem lookupEdges_last {hops : List SendpayHop} {edges : List (SendpayHop × Option ChannelPolicy)}
    {t : RouterState ω} (h : (lookupEdges env hops : Route ω ε _) s = (.ok edges, t)) :
    ∀ edge ∈ edges.getLast?, edge.2 = none := by
  induction hops generalizing edges t with
  | nil =>
    cases h
    simp
  | cons hop rest ih =>
    cases rest with
    | nil =>
      cases h
      simp
    | cons next rest =>
      obtain ⟨later, u, policy, hrest, -, rfl⟩ := lookupEdges_cons h
      have hlater : later ≠ [] := by
        rintro rfl
        exact absurd (lookupEdges_hops hrest) (by simp)
      rw [List.getLast?_cons_of_ne_nil hlater]
      exact ih hrest

theorem pricingFits_iff (hamount : 1 ≤ pair.amountSats ∧ pair.amountSats ≤ rebalanceMaxAmount)
    (hgossip : GossipScript env pair exclude s) :
    PricingFits env pair exclude s ↔ PricingBounded env pair exclude s := by
  have hmiddle : ∀ h : MiddleHeard env pair exclude s, RepriceFits h.routeAmount h.edges ↔
      (h.middle.zip (h.edges.map Prod.snd)).IsChain fun a b =>
        ∀ policy ∈ a.2, policy.Carries b.1.amountMsat := fun h =>
    repriceFits_iff (hgossip.middle h) (lookupEdges_last h.edgesHeard)
  constructor
  · intro hfits
    refine ⟨?_, fun h => (hfits.finalHop h).cltv, hfits.routes,
      fun h => (hmiddle h).mp (hfits.middle h), ?_⟩
    · intro h
      have hhop := hfits.finalHop h
      exact (feeSatsFits_iff (hgossip.finalHop h).1 hamount).mp ⟨hhop.fee, hhop.gross⟩
    · intro h
      exact ⟨(forwardFits_iff (hgossip.source h) _).mp (hfits.source h).forward,
        (hfits.source h).overpay⟩
  · intro hbounded
    refine ⟨?_, hbounded.routes, fun h => (hmiddle h).mpr (hbounded.middle h), ?_⟩
    · intro h
      have hhop := (feeSatsFits_iff (hgossip.finalHop h).1 hamount).mpr (hbounded.finalHop h)
      exact ⟨hbounded.cltv h, hhop.1, hhop.2⟩
    · intro h
      obtain ⟨hcarries, hoverpay⟩ := hbounded.source h
      have hdelay := h.first_delay
      have hcltv := (hgossip.source h).cltvDelta
      have htotal := hcarries.total
      refine ⟨(forwardFits_iff (hgossip.source h) _).mpr hcarries, ?_, hoverpay, fun hpaid => ?_⟩
      · unfold SourceHeard.delay InI64 InU32 at *
        omega
      · unfold SourceHeard.overpay SourceHeard.total at hpaid ⊢
        unfold CeilFits InI64 at *
        omega

theorem pricePair_returns_iff_fits :
    (∃ r t, (pricePair env pair exclude : Route ω ε RouteResult) s = (.ok r, t)) ↔
      PricingFits env pair exclude s := by
  rw [← tryPricePair_returns_iff]
  rcases hrun : tryPricePair env pair exclude s with ⟨tried, t⟩
  cases tried with
  | ok r =>
    refine iff_of_true ⟨r, t, bind_run (attempt_run hrun)⟩ ?_
    simp [Outcome.Returned]
  | err e =>
    have hattempt : (Eff.attempt (tryPricePair env pair exclude) : Route ω ε _) s =
        (.ok (.error e), t) := by
      unfold Eff.attempt
      rw [hrun]
    refine iff_of_true ⟨_, t, bind_run hattempt⟩ ?_
    simp [Outcome.Returned]
  | panic =>
    have hpanic : ((pricePair env pair exclude : Route ω ε RouteResult) s).1 = .panic := by
      apply bind_panics
      unfold Eff.attempt
      rw [hrun]
    refine iff_of_false ?_ (by simp [Outcome.Returned])
    rintro ⟨r, u, hreturned⟩
    rw [hreturned] at hpanic
    cases hpanic

/-- On policies that gossip can carry, pricing returns exactly where the products of amounts and
rates leave room for the rounding and the sums fit. -/
theorem pricePair_returns_iff
    (hamount : 1 ≤ pair.amountSats ∧ pair.amountSats ≤ rebalanceMaxAmount)
    (hgossip : GossipScript env pair exclude s) :
    (∃ r t, (pricePair env pair exclude : Route ω ε RouteResult) s = (.ok r, t)) ↔
      PricingBounded env pair exclude s := by
  rw [pricePair_returns_iff_fits, pricingFits_iff hamount hgossip]

end Script

section Samples

theorem sampleEdges_gossiped : ∀ edge ∈ sampleEdges, ∀ policy ∈ edge.2, policy.Gossiped := by
  intro edge hedge policy hheard
  rcases List.mem_cons.mp hedge with rfl | hedge
  · cases hheard
    exact ⟨by decide, by decide, by decide⟩
  · obtain rfl := List.mem_singleton.mp hedge
    cases hheard

theorem plain_gossip :
    @GossipScript Unit mutePrinter plainNode (samplePair 1000) [] startState := by
  apply @GossipScript.mk Unit mutePrinter
  · intro h
    rw [h.unique plainFinalHop]
    exact ⟨⟨by decide, by decide, by decide⟩, by decide⟩
  · intro h
    rw [@MiddleHeard.unique Unit mutePrinter _ _ _ _ h plainMiddle]
    exact sampleEdges_gossiped
  · intro h
    rw [@SourceHeard.unique Unit mutePrinter _ _ _ _ h plainSource]
    exact ⟨by decide, by decide, by decide⟩

theorem plain_price_returns :
    (∃ r t, sampleRun plainNode 1000 = (.ok r, t)) ↔
      @PricingBounded Unit mutePrinter plainNode (samplePair 1000) [] startState :=
  @pricePair_returns_iff Unit Empty mutePrinter plainNode (samplePair 1000) [] startState
    (by decide) plain_gossip

def greedyNode : Env Unit := oneMiddleNode 4294967295 0 [sourceEdge 0, middleEdge]

def greedyFinalHop : FinalHopHeard greedyNode (samplePair 5000000) startState where
  policy := ⟨4294967295, 0, 34⟩
  destCltv := 34
  afterPolicy := _
  afterCltv := _
  policyHeard := rfl
  cltvHeard := rfl

def greedyRoutes : RoutesHeard greedyNode (samplePair 5000000) [] startState :=
  { greedyFinalHop with
    layers := [autoNoMppLayer, "rebalance-exclude-1700000000-1"]
    result := _
    afterLayers := _
    afterRoutes := _
    layersHeard := rfl
    routesHeard := rfl }

def greedyMiddle : @MiddleHeard Unit mutePrinter greedyNode (samplePair 5000000) [] startState :=
  let _ := mutePrinter
  { greedyRoutes with
    best := _
    hops := sampleEdges.map Prod.fst
    edges := sampleEdges
    afterEdges := _
    chosen := rfl
    edgesHeard := rfl }

theorem greedy_source (h : @SourceHeard Unit mutePrinter greedyNode (samplePair 5000000) []
    startState) : @SourceHeard.sourcePolicy Unit mutePrinter _ _ _ _ h = ⟨200, 0, 6⟩ := by
  obtain ⟨hmiddle, first, later, policy, afterSource, hfirst, hsource⟩ := h
  obtain rfl := @MiddleHeard.unique Unit mutePrinter _ _ _ _ hmiddle greedyMiddle
  have hrepriced : exactReprice greedyMiddle.routeAmount sampleEdges = first :: later := hfirst
  obtain ⟨amountMsat, hhead⟩ : ∃ amountMsat,
      (exactReprice greedyMiddle.routeAmount sampleEdges).head? = some
        { (⟨"02dd", "30x1x0", 0, 60, 0⟩ : SendpayHop) with amountMsat := amountMsat } :=
    exactReprice_head _ _ _ _
  rw [hrepriced] at hhead
  cases hhead
  cases hsource
  rfl

/-- At the default largest amount the rate of the final hop alone leaves the range. -/
theorem greedy_price_panics :
    (1 ≤ (samplePair 5000000).amountSats ∧ (samplePair 5000000).amountSats ≤ rebalanceMaxAmount) ∧
      @GossipScript Unit mutePrinter greedyNode (samplePair 5000000) [] startState ∧
      ¬∃ r t, sampleRun greedyNode 5000000 = (.ok r, t) := by
  refine ⟨by decide, ?_, ?_⟩
  · apply @GossipScript.mk Unit mutePrinter
    · intro h
      rw [h.unique greedyFinalHop]
      exact ⟨⟨by decide, by decide, by decide⟩, by decide⟩
    · intro h
      rw [@MiddleHeard.unique Unit mutePrinter _ _ _ _ h greedyMiddle]
      exact sampleEdges_gossiped
    · intro h
      rw [greedy_source h]
      exact ⟨by decide, by decide, by decide⟩
  · rintro ⟨r, t, hrun⟩
    have hpanic : (sampleRun greedyNode 5000000).1.value.isSome = false := by decide
    rw [hrun] at hpanic
    cases hpanic

end Samples

end CycleRouter
