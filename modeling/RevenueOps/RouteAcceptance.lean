import RevenueOps.PricingStages
import Mathlib.Algebra.Order.Floor.Ring
import Mathlib.Data.List.Chain
import Mathlib.Data.Rat.Floor
import Mathlib.Tactic.Linarith

/-! What a priced route promises: every node is paid, and when the executor takes the route. -/
namespace CycleRouter

open FallibleState JsonValue RustNumber
open RouteExecutor (SendpayHop ExecuteRequest validateRoute checkHops)

section Ceilings

theorem exactCeil_eq {a : ℤ} (ha : 0 ≤ a) {b : ℤ} (hb : 0 < b) :
    exactCeil a b = ⌈(a : ℚ) / b⌉ := by
  have hbq : (0 : ℚ) < b := by exact_mod_cast hb
  have hquot : (a + b - 1).tdiv b = (a + b - 1) / b := Int.tdiv_eq_ediv_of_nonneg (by omega)
  have hmod := Int.emod_add_mul_ediv (a + b - 1) b
  have hlow := Int.emod_nonneg (a + b - 1) hb.ne'
  have hhigh := Int.emod_lt_of_pos (a + b - 1) hb
  symm
  unfold exactCeil
  rw [hquot, Int.ceil_eq_iff, lt_div_iff₀ hbq, div_le_iff₀ hbq]
  constructor
  · have hbelow : ((a + b - 1) / b - 1) * b < a := by linarith [mul_comm b ((a + b - 1) / b)]
    exact_mod_cast hbelow
  · have habove : a ≤ (a + b - 1) / b * b := by linarith [mul_comm b ((a + b - 1) / b)]
    exact_mod_cast habove

/-- What a node asks for forwarding an amount: the base fee and the proportional one, rounded up. -/
def ChannelPolicy.due (policy : ChannelPolicy) (forwardedMsat : ℤ) : ℤ :=
  policy.feeBaseMsat + ⌈((policy.feePpm * forwardedMsat : ℤ) : ℚ) / 1000000⌉

structure ChannelPolicy.NonNegative (policy : ChannelPolicy) : Prop where
  feePpm : 0 ≤ policy.feePpm
  feeBaseMsat : 0 ≤ policy.feeBaseMsat

theorem ChannelPolicy.fee_eq_due {policy : ChannelPolicy} (h : policy.NonNegative) {x : ℤ}
    (hx : 0 ≤ x) : policy.fee x = policy.due x := by
  unfold ChannelPolicy.fee ChannelPolicy.due
  rw [exactCeil_eq (mul_nonneg hx h.feePpm) (by norm_num), mul_comm x]
  norm_num

theorem ChannelPolicy.fee_nonneg {policy : ChannelPolicy} (h : policy.NonNegative) {x : ℤ}
    (hx : 0 ≤ x) : 0 ≤ policy.fee x := by
  have hceil : 0 ≤ exactCeil (x * policy.feePpm) 1000000 :=
    Int.tdiv_nonneg (by linarith [mul_nonneg hx h.feePpm]) (by norm_num)
  exact add_nonneg h.feeBaseMsat hceil

theorem ChannelPolicy.due_le_feeSats {policy : ChannelPolicy} (h : policy.NonNegative)
    {amountSats : ℤ} (hamount : 0 ≤ amountSats) :
    amountSats * 1000 + policy.due (amountSats * 1000) ≤
      grossMsat amountSats (policy.feeSats amountSats) := by
  have hmsat : 0 ≤ amountSats * 1000 := by omega
  have hfee := ChannelPolicy.fee_nonneg h hmsat
  have hceil : exactCeil (policy.fee (amountSats * 1000)) 1000 =
      (policy.fee (amountSats * 1000) + 999) / 1000 := by
    unfold exactCeil
    rw [Int.tdiv_eq_ediv_of_nonneg (by omega)]
    congr 1
    omega
  rw [← ChannelPolicy.fee_eq_due h hmsat]
  unfold grossMsat ChannelPolicy.feeSats
  rw [hceil]
  omega

end Ceilings

section Middle

/-- A stop of the route: the hop that leads to its node, and the policy heard for the node. -/
abbrev Stop := SendpayHop × Option ChannelPolicy

def Pays (a b : Stop) : Prop :=
  ∀ policy ∈ a.2, b.1.amountMsat + policy.due b.1.amountMsat ≤ a.1.amountMsat

/-- The amount of `a` covers that of `b`: by a fee that is not negative, or as getroutes gave it. -/
def Covers (a b : Stop) : Prop :=
  match a.2 with
  | some policy => 0 ≤ policy.fee b.1.amountMsat
  | none => b.1.amountMsat ≤ a.1.amountMsat

def Descends (a b : SendpayHop) : Prop := b.amountMsat ≤ a.amountMsat

variable {finalAmountMsat : ℤ} {edges : List (SendpayHop × Option ChannelPolicy)}

theorem exactReprice_cons {hop : SendpayHop} {policy : Option ChannelPolicy}
    {outgoing : SendpayHop} {later : List SendpayHop}
    (h : exactReprice finalAmountMsat edges = outgoing :: later) :
    exactReprice finalAmountMsat ((hop, policy) :: edges) =
      { hop with amountMsat := received hop outgoing.amountMsat policy } :: outgoing :: later := by
  simp [exactReprice, h]

theorem exactReprice_ne_nil (finalAmountMsat : ℤ) (h : edges ≠ []) :
    ∃ outgoing later, exactReprice finalAmountMsat edges = outgoing :: later := by
  obtain ⟨edge, rest, rfl⟩ := List.exists_cons_of_ne_nil h
  obtain ⟨amountMsat, hhead⟩ := exactReprice_head finalAmountMsat rest edge.1 edge.2
  obtain ⟨later, hcons⟩ := List.head?_eq_some_iff.mp hhead
  exact ⟨_, later, hcons⟩

theorem length_exactReprice (finalAmountMsat : ℤ)
    (edges : List (SendpayHop × Option ChannelPolicy)) :
    (exactReprice finalAmountMsat edges).length = edges.length := by
  induction edges with
  | nil => rfl
  | cons edge edges ih =>
    cases hrest : exactReprice finalAmountMsat edges with
    | nil =>
      rw [hrest] at ih
      simp [exactReprice, hrest, ← ih]
    | cons outgoing later =>
      rw [hrest] at ih
      rw [exactReprice_cons hrest, List.length_cons, ih, List.length_cons]

/-- Every node of the middle but its last with the policy heard for it. -/
def EdgesKnown (edges : List (SendpayHop × Option ChannelPolicy)) : Prop :=
  ∀ edge ∈ edges.dropLast, edge.2.isSome

def EdgesNonNegative (edges : List (SendpayHop × Option ChannelPolicy)) : Prop :=
  ∀ edge ∈ edges.dropLast, ∀ policy ∈ edge.2, policy.NonNegative

/-- The repriced amounts are at least the final one and descend, where every policy is known. -/
theorem exactReprice_descends (hknown : EdgesKnown edges) (hnonneg : EdgesNonNegative edges)
    (hfinal : 0 ≤ finalAmountMsat) :
    (∀ hop ∈ exactReprice finalAmountMsat edges, finalAmountMsat ≤ hop.amountMsat) ∧
      (exactReprice finalAmountMsat edges).IsChain Descends := by
  induction edges with
  | nil => exact ⟨fun hop h => (List.not_mem_nil h).elim, .nil⟩
  | cons edge edges ih =>
    by_cases hrest : edges = []
    · subst hrest
      refine ⟨?_, .singleton _⟩
      intro hop h
      obtain rfl := List.mem_singleton.mp h
      exact le_rfl
    · obtain ⟨outgoing, later, hcons⟩ := exactReprice_ne_nil finalAmountMsat hrest
      rw [EdgesKnown, List.dropLast_cons_of_ne_nil hrest] at hknown
      rw [EdgesNonNegative, List.dropLast_cons_of_ne_nil hrest] at hnonneg
      obtain ⟨hatleast, hdescends⟩ := ih (fun e he => hknown e (List.mem_cons_of_mem _ he))
        fun e he => hnonneg e (List.mem_cons_of_mem _ he)
      rw [exactReprice_cons hcons]
      rw [hcons] at hatleast hdescends
      obtain ⟨policy, hpolicy⟩ := Option.isSome_iff_exists.mp (hknown edge List.mem_cons_self)
      have hout := hatleast outgoing List.mem_cons_self
      have hfee := ChannelPolicy.fee_nonneg (hnonneg edge List.mem_cons_self policy hpolicy)
        (hfinal.trans hout)
      have hstep : outgoing.amountMsat ≤ received edge.1 outgoing.amountMsat edge.2 := by
        rw [hpolicy]
        exact le_add_of_nonneg_right hfee
      constructor
      · intro hop h
        rcases List.mem_cons.mp h with rfl | h
        · exact hout.trans hstep
        · exact hatleast hop h
      · exact List.isChain_cons_cons.mpr ⟨hstep, hdescends⟩

/-- The stops behind the source peer, for the policy of the final hop and our own last hop. -/
def stops (route : List SendpayHop) (edges : List (SendpayHop × Option ChannelPolicy))
    (finalPolicy : ChannelPolicy) : List Stop :=
  route.zip (edges.dropLast.map Prod.snd ++ [some finalPolicy, none])

theorem stops_cons {hop : SendpayHop} {route : List SendpayHop}
    {edge : SendpayHop × Option ChannelPolicy} (hedges : edges ≠ []) (p : ChannelPolicy) :
    stops (hop :: route) (edge :: edges) p = (hop, edge.2) :: stops route edges p := by
  unfold stops
  rw [List.dropLast_cons_of_ne_nil hedges]
  rfl

theorem stops_head (hop : SendpayHop) (route : List SendpayHop) (hedges : edges ≠ [])
    (p : ChannelPolicy) :
    ∃ policy later, stops (hop :: route) edges p = (hop, policy) :: later := by
  obtain ⟨edge, rest, rfl⟩ := List.exists_cons_of_ne_nil hedges
  by_cases hrest : rest = []
  · subst hrest
    exact ⟨some p, _, rfl⟩
  · exact ⟨edge.2, _, stops_cons hrest p⟩

/-- Every node from the middle on is paid, where our last hop is covered by the final policy. -/
theorem stops_pay {p : ChannelPolicy} {last : SendpayHop} (hedges : edges ≠ [])
    (hknown : EdgesKnown edges) (hnonneg : EdgesNonNegative edges) (hfinal : 0 ≤ finalAmountMsat)
    (hlast : last.amountMsat + p.due last.amountMsat ≤ finalAmountMsat) :
    (stops (exactReprice finalAmountMsat edges ++ [last]) edges p).IsChain Pays := by
  induction edges with
  | nil => exact absurd rfl hedges
  | cons edge edges ih =>
    by_cases hrest : edges = []
    · subst hrest
      refine List.isChain_cons_cons.mpr ⟨?_, .singleton _⟩
      rintro q ⟨⟩
      exact hlast
    · rw [EdgesKnown, List.dropLast_cons_of_ne_nil hrest] at hknown
      rw [EdgesNonNegative, List.dropLast_cons_of_ne_nil hrest] at hnonneg
      have hknownRest : EdgesKnown edges := fun e he => hknown e (List.mem_cons_of_mem _ he)
      have hnonnegRest : EdgesNonNegative edges := fun e he =>
        hnonneg e (List.mem_cons_of_mem _ he)
      have hpays := ih hrest hknownRest hnonnegRest
      obtain ⟨outgoing, later, hcons⟩ := exactReprice_ne_nil finalAmountMsat hrest
      have hout := (exactReprice_descends hknownRest hnonnegRest hfinal).1 outgoing
        (by rw [hcons]; exact List.mem_cons_self)
      rw [hcons] at hpays
      rw [exactReprice_cons hcons, List.cons_append, stops_cons hrest]
      obtain ⟨policy, tail, hstops⟩ := stops_head outgoing (later ++ [last]) hrest p
      rw [List.cons_append, hstops] at hpays ⊢
      refine List.isChain_cons_cons.mpr ⟨?_, hpays⟩
      intro q hq
      have hdue := ChannelPolicy.fee_eq_due (hnonneg edge List.mem_cons_self q hq)
        (hfinal.trans hout)
      rw [← hdue, show edge.2 = some q from hq]
      exact le_rfl

theorem exactReprice_last (finalAmountMsat : ℤ) (h : edges ≠ []) :
    ∃ hop, (exactReprice finalAmountMsat edges).getLast? = some hop ∧
      hop.amountMsat = finalAmountMsat := by
  induction edges with
  | nil => exact absurd rfl h
  | cons edge edges ih =>
    by_cases hrest : edges = []
    · subst hrest
      exact ⟨_, rfl, rfl⟩
    · obtain ⟨outgoing, later, hcons⟩ := exactReprice_ne_nil finalAmountMsat hrest
      obtain ⟨hop, hlast, hamount⟩ := ih hrest
      rw [hcons] at hlast
      exact ⟨hop, by rw [exactReprice_cons hcons, List.getLast?_cons_cons, hlast], hamount⟩

/-- The middle descends exactly where every node's amount covers the next one's. -/
theorem exactReprice_descends_iff :
    (exactReprice finalAmountMsat edges).IsChain Descends ↔
      ((exactReprice finalAmountMsat edges).zip (edges.map Prod.snd)).IsChain Covers := by
  induction edges with
  | nil => exact iff_of_true .nil .nil
  | cons edge edges ih =>
    by_cases hrest : edges = []
    · subst hrest
      exact iff_of_true (.singleton _) (.singleton _)
    · obtain ⟨outgoing, later, hcons⟩ := exactReprice_ne_nil finalAmountMsat hrest
      obtain ⟨next, rest, rfl⟩ := List.exists_cons_of_ne_nil hrest
      rw [hcons] at ih
      rw [exactReprice_cons hcons, List.map_cons, List.zip_cons_cons]
      rw [List.map_cons, List.zip_cons_cons] at ih ⊢
      rw [List.isChain_cons_cons, List.isChain_cons_cons, ih]
      apply and_congr_left
      intro _
      unfold Descends Covers received
      cases edge.2 with
      | none => exact Iff.rfl
      | some policy => exact le_add_iff_nonneg_right _

end Middle

section Accepted

variable {ω ε : Type} [SerdeJson] {env : Env ω} {pair : PlannedPairCtx} {exclude : List String}
  {s t : RouterState ω} {r : RouteResult}

namespace SourceHeard

variable (h : SourceHeard env pair exclude s)

/-- The policies heard for the nodes of the route, in its order; we are the last node. -/
def policies : List (Option ChannelPolicy) :=
  some h.sourcePolicy :: (h.edges.dropLast.map Prod.snd ++ [some h.policy, none])

theorem edges_ne_nil : h.edges ≠ [] := by
  intro hnone
  have hmiddle := h.middle_eq
  unfold MiddleHeard.middle at hmiddle
  rw [hnone] at hmiddle
  cases hmiddle

theorem route_eq : h.route = h.firstHop :: h.first :: (h.later ++ [finalHop pair]) := by
  unfold route
  rw [h.middle_eq]
  rfl

theorem zip_policies : h.route.zip h.policies =
    (h.firstHop, some h.sourcePolicy) :: stops (h.middle ++ [finalHop pair]) h.edges h.policy := rfl

theorem length_policies : h.policies.length = h.route.length := by
  have hmiddle : h.middle.length = h.edges.length := length_exactReprice _ _
  have hpos := List.length_pos_of_ne_nil h.edges_ne_nil
  simp only [policies, route, List.length_cons, List.length_append, List.length_map,
    List.length_dropLast, hmiddle, List.length_nil]
  omega

theorem getLast_route : h.route.getLast? = some (finalHop pair) := by
  unfold route
  exact List.getLast?_concat

theorem cost_eq (hpaid : 0 ≤ h.overpay) : h.cost = ⌈(h.overpay : ℚ) / 1000⌉ := by
  unfold cost
  by_cases hzero : h.overpay ≤ 0
  · rw [if_pos hzero, le_antisymm hzero hpaid]
    norm_num
  · rw [if_neg hzero, exactCeil_eq hpaid (by norm_num)]
    norm_num

/-- The amounts descend exactly where every fee on the way covers what is forwarded. -/
structure Covered : Prop where
  source : 0 ≤ h.sourcePolicy.fee h.first.amountMsat
  middle : (h.middle.zip (h.edges.map Prod.snd)).IsChain Covers
  final : 0 ≤ h.policy.feeSats pair.amountSats

theorem descends_iff : h.route.IsChain Descends ↔ h.Covered := by
  obtain ⟨last, hlast, hamount⟩ := exactReprice_last h.routeAmount h.edges_ne_nil
  have hwhole : h.route.IsChain Descends ↔
      Descends h.firstHop h.first ∧ h.middle.IsChain Descends ∧ Descends last (finalHop pair) := by
    have hhead : ∀ l : List SendpayHop, (h.firstHop :: h.middle ++ l).IsChain Descends ↔
        Descends h.firstHop h.first ∧ (h.middle ++ l).IsChain Descends := by
      intro l
      rw [h.middle_eq]
      exact List.isChain_cons_cons
    unfold route
    rw [hhead, List.isChain_append]
    simp only [MiddleHeard.middle, hlast, Option.mem_def, Option.some.injEq, forall_eq',
      List.head?_cons, List.isChain_singleton, true_and]
  have hfirst : Descends h.firstHop h.first ↔ 0 ≤ h.sourcePolicy.fee h.first.amountMsat :=
    le_add_iff_nonneg_right _
  have hend : Descends last (finalHop pair) ↔ 0 ≤ h.policy.feeSats pair.amountSats := by
    unfold Descends
    rw [hamount]
    unfold FinalHopHeard.routeAmount grossMsat finalHop
    simp only []
    omega
  rw [hwhole, hfirst, hend]
  unfold MiddleHeard.middle
  rw [exactReprice_descends_iff]
  constructor
  · rintro ⟨hsource, hmiddle, hfinal⟩
    exact ⟨hsource, hmiddle, hfinal⟩
  · intro hcovered
    exact ⟨hcovered.source, hcovered.middle, hcovered.final⟩

end SourceHeard

theorem pricePair_success
    (h : (pricePair env pair exclude : Route ω ε RouteResult) s = (.ok r, t))
    (hsuccess : r.success = true) :
    ∃ heard : SourceHeard env pair exclude s, heard.toFinalHopHeard.Fits ∧ heard.Fits ∧
      r = heard.price := by
  have hends := tryPricePair_ends env pair exclude s
  rcases hrun : tryPricePair env pair exclude s with ⟨tried, u⟩
  rw [hrun] at hends
  cases hends with
  | price heard hhop hmiddle hfits =>
    rw [show pricePair env pair exclude s = _ from bind_run (attempt_run hrun)] at h
    cases h
    exact ⟨heard, hhop, hfits, rfl⟩
  | failed message =>
    rw [show pricePair env pair exclude s = _ from bind_run (attempt_run hrun)] at h
    cases h
    cases hsuccess
  | error e =>
    have hattempt : (Eff.attempt (tryPricePair env pair exclude) : Route ω ε _) s =
        (.ok (.error e), u) := by
      unfold Eff.attempt
      rw [hrun]
    rw [show pricePair env pair exclude s = _ from bind_run hattempt] at h
    cases h
    cases hsuccess
  | panicked _ =>
    have hpanic : ((pricePair env pair exclude : Route ω ε RouteResult) s).1 = .panic := by
      apply bind_panics
      unfold Eff.attempt
      rw [hrun]
    rw [h] at hpanic
    cases hpanic

/-- The route goes out on the source channel and comes back to us on the destination channel with
the amount; no hop receives more than the one before it; every node between is paid its fee, and
the cost is what the first hop receives beyond the amount. -/
structure PaysEveryHop (pair : PlannedPairCtx) (policies : List (Option ChannelPolicy))
    (r : RouteResult) : Prop where
  starts : ∃ first, r.route.head? = some first ∧ first.channel = pair.sourceChannelId
  ends : ∃ last, r.route.getLast? = some last ∧ last.id = pair.ourNodeId ∧
    last.channel = pair.destChannelId ∧ last.amountMsat = pair.amountSats * 1000
  descends : r.route.IsChain Descends
  nodes : policies.length = r.route.length ∧ ∀ policy ∈ policies.dropLast, policy.isSome
  pays : (r.route.zip policies).IsChain Pays
  cost : ∀ first ∈ r.route.head?, ∀ last ∈ r.route.getLast?,
    r.routeCostSats = ⌈((first.amountMsat - last.amountMsat : ℤ) : ℚ) / 1000⌉

/-- A priced route pays every hop, where every policy is known and not negative. -/
theorem priced_route_pays_every_hop (hamount : 0 < pair.amountSats)
    (hprice : (pricePair env pair exclude : Route ω ε RouteResult) s = (.ok r, t))
    (hsuccess : r.success = true) :
    ∃ heard : SourceHeard env pair exclude s,
      (∀ policy, some policy ∈ heard.policies → policy.NonNegative) →
        EdgesKnown heard.edges → PaysEveryHop pair heard.policies r := by
  obtain ⟨h, -, -, rfl⟩ := pricePair_success hprice hsuccess
  refine ⟨h, ?_⟩
  intro hpolicies hknown
  have hsource : h.sourcePolicy.NonNegative := hpolicies _ List.mem_cons_self
  have hpolicy : h.policy.NonNegative := hpolicies _ (by simp [SourceHeard.policies])
  have hedges : EdgesNonNegative h.edges := by
    intro edge hedge policy hheard
    apply hpolicies
    apply List.mem_cons_of_mem
    apply List.mem_append_left
    exact List.mem_map.mpr ⟨edge, hedge, hheard⟩
  have hfinal : pair.amountSats * 1000 + h.policy.due (pair.amountSats * 1000) ≤ h.routeAmount :=
    ChannelPolicy.due_le_feeSats hpolicy hamount.le
  have hdue : 0 ≤ h.policy.due (pair.amountSats * 1000) := by
    rw [← ChannelPolicy.fee_eq_due hpolicy (by omega)]
    exact ChannelPolicy.fee_nonneg hpolicy (by omega)
  have hroute : 0 ≤ h.routeAmount := by omega
  obtain ⟨hatleast, hdescends⟩ := exactReprice_descends hknown hedges hroute
  have hfirst : h.routeAmount ≤ h.first.amountMsat :=
    hatleast h.first (by rw [show exactReprice h.routeAmount h.edges = _ from h.middle_eq]
                         exact List.mem_cons_self)
  have hfee := ChannelPolicy.fee_nonneg hsource (hroute.trans hfirst)
  have hoverpay : 0 ≤ h.overpay := by
    unfold SourceHeard.overpay SourceHeard.total
    omega
  constructor
  · exact ⟨h.firstHop, rfl, rfl⟩
  · exact ⟨_, h.getLast_route, rfl, rfl, rfl⟩
  · rw [show h.price.route = h.route from rfl, h.descends_iff]
    constructor
    · exact hfee
    · exact exactReprice_descends_iff.mp hdescends
    · unfold FinalHopHeard.routeAmount grossMsat at hfinal
      omega
  · refine ⟨h.length_policies, ?_⟩
    have hnodes : h.policies.dropLast =
        some h.sourcePolicy :: (h.edges.dropLast.map Prod.snd ++ [some h.policy]) := by
      unfold SourceHeard.policies
      rw [List.dropLast_cons_of_ne_nil (by simp), List.dropLast_append_of_ne_nil (by simp)]
      rfl
    rw [hnodes]
    intro policy hmem
    rcases List.mem_cons.mp hmem with rfl | hmem
    · rfl
    · rcases List.mem_append.mp hmem with hmem | hmem
      · obtain ⟨edge, hedge, rfl⟩ := List.mem_map.mp hmem
        exact hknown edge hedge
      · obtain rfl := List.mem_singleton.mp hmem
        rfl
  · have hend : (SourceHeard.finalHop pair).amountMsat +
        h.policy.due (SourceHeard.finalHop pair).amountMsat ≤ h.routeAmount := hfinal
    have hpays := stops_pay h.edges_ne_nil hknown hedges hroute hend
    rw [show h.price.route = h.route from rfl, h.zip_policies, h.middle_eq]
    rw [show exactReprice h.routeAmount h.edges = _ from h.middle_eq] at hpays
    obtain ⟨policy, later, hstops⟩ := stops_head h.first
      (h.later ++ [SourceHeard.finalHop pair]) h.edges_ne_nil h.policy
    rw [List.cons_append, hstops] at hpays ⊢
    refine List.isChain_cons_cons.mpr ⟨?_, hpays⟩
    rintro q ⟨⟩
    rw [← ChannelPolicy.fee_eq_due hsource (hroute.trans hfirst)]
    exact le_rfl
  · intro first hhead last hlast
    rw [show h.price.route = h.route from rfl, h.getLast_route] at hlast
    cases hlast
    obtain rfl : h.firstHop = first := Option.some.inj hhead
    exact h.cost_eq hoverpay

omit [SerdeJson] in
theorem checkHops_ok (index : ℕ) (previousMsat : Option ℤ) (route : List SendpayHop) :
    checkHops index previousMsat route = .ok () ↔
      (∀ hop ∈ route, 0 < hop.amountMsat) ∧
        (∀ prev ∈ previousMsat, ∀ hop ∈ route.head?, hop.amountMsat ≤ prev) ∧
          route.IsChain Descends := by
  induction route generalizing index previousMsat with
  | nil => simp [checkHops]
  | cons hop route ih =>
    unfold checkHops
    by_cases hpositive : hop.amountMsat ≤ 0
    · rw [if_pos hpositive]
      refine iff_of_false (by simp) fun h => ?_
      exact absurd (h.1 hop List.mem_cons_self) (not_lt.mpr hpositive)
    · rw [if_neg hpositive]
      by_cases hrise : (previousMsat.any fun prev => prev < hop.amountMsat) = true
      · rw [if_pos hrise]
        refine iff_of_false (by simp) fun h => ?_
        cases previousMsat with
        | none => cases hrise
        | some prev =>
          have hlt : prev < hop.amountMsat := of_decide_eq_true hrise
          exact absurd (h.2.1 prev rfl hop rfl) (not_le.mpr hlt)
      · rw [if_neg hrise, ih]
        have hprev : ∀ prev ∈ previousMsat, hop.amountMsat ≤ prev := by
          rintro prev ⟨⟩
          simpa using hrise
        constructor
        · rintro ⟨hpos, hnext, hchain⟩
          refine ⟨?_, ?_, ?_⟩
          · intro x hx
            rcases List.mem_cons.mp hx with rfl | hx
            · exact not_le.mp hpositive
            · exact hpos x hx
          · rintro prev hp x ⟨⟩
            exact hprev prev hp
          · exact List.IsChain.cons hchain fun y hy => hnext _ rfl y hy
        · rintro ⟨hpos, -, hchain⟩
          refine ⟨fun x hx => hpos x (List.mem_cons_of_mem _ hx), ?_, hchain.tail⟩
          rintro prev ⟨⟩ x hx
          exact List.isChain_cons.mp hchain |>.1 x hx

def executeRequest (pair : PlannedPairCtx) (r : RouteResult) (maxFeeSats nowMs : ℤ) :
    ExecuteRequest :=
  ⟨r.route, pair.amountSats, pair.sourceChannelId, pair.destChannelId, maxFeeSats, pair.ourNodeId,
    nowMs⟩

theorem validateRoute_price (h : SourceHeard env pair exclude s) (hhop : h.toFinalHopHeard.Fits)
    (hfits : h.Fits) (hamount : 0 < pair.amountSats) (maxFeeSats nowMs : ℤ) :
    validateRoute (executeRequest pair h.price maxFeeSats nowMs) = (do
      checkHops 0 none h.route
      let maxFeeMsat ← .checked (mulI64 (max maxFeeSats 0) 1000)
      if maxFeeMsat < max h.overpay 0 then do
        let feeSats ← .checked (RouteExecutor.baseToSatsCeil (max h.overpay 0))
        .err (s!"route_over_budget: {feeSats} > {maxFeeSats}", max h.overpay 0)
      else pure (max h.overpay 0)) := by
  have hlast := h.getLast_route
  have hmul : Computes (mulI64 pair.amountSats 1000) (InI64 (pair.amountSats * 1000))
      (pair.amountSats * 1000) := computes_i64 _
  have hsub : Computes (subI64 h.total (pair.amountSats * 1000)) (InI64 h.overpay) h.overpay :=
    computes_i64 _
  unfold validateRoute executeRequest
  simp only [SourceHeard.price, not_le.mpr hamount, if_false, hlast]
  rw [h.route_eq]
  simp only [List.head?_cons, SourceHeard.firstHop, SourceHeard.finalHop, ne_eq, not_true_eq_false,
    if_false, hmul.value hhop.fee.amount]
  change (if pair.amountSats * 1000 ≠ pair.amountSats * 1000 then _ else _) = _
  rw [if_neg (fun hne => hne rfl), hsub.value hfits.overpay]
  rfl

omit [SerdeJson] in
theorem last_le_of_descends {route : List SendpayHop} {last : SendpayHop}
    (h : route.IsChain Descends) (hlast : route.getLast? = some last) :
    ∀ hop ∈ route, last.amountMsat ≤ hop.amountMsat := by
  induction route with
  | nil => exact fun hop hmem => (List.not_mem_nil hmem).elim
  | cons first rest ih =>
    cases rest with
    | nil =>
      intro hop hmem
      obtain rfl := List.mem_singleton.mp hmem
      cases hlast
      exact le_rfl
    | cons next rest =>
      obtain ⟨hstep, hchain⟩ := List.isChain_cons_cons.mp h
      have hrest := ih hchain (by rwa [List.getLast?_cons_cons] at hlast)
      intro hop hmem
      rcases List.mem_cons.mp hmem with rfl | hmem
      · exact (hrest next List.mem_cons_self).trans hstep
      · exact hrest hop hmem

/-- The executor takes a priced route, with its cost as the planned fee, exactly where every fee
heard is not negative, every kept amount covers the next one, and the cap fits in msat. -/
theorem priced_route_accepted_iff (hamount : 0 < pair.amountSats)
    (hprice : (pricePair env pair exclude : Route ω ε RouteResult) s = (.ok r, t))
    (hsuccess : r.success = true) {maxFeeSats : ℤ} (hmax : r.routeCostSats ≤ maxFeeSats)
    (nowMs : ℤ) :
    ∃ heard : SourceHeard env pair exclude s,
      ((∃ feeMsat, validateRoute (executeRequest pair r maxFeeSats nowMs) = .ok feeMsat ∧
          ⌈(feeMsat : ℚ) / 1000⌉ = r.routeCostSats) ↔
        heard.Covered ∧ InI64 (max maxFeeSats 0 * 1000)) := by
  obtain ⟨h, hhop, hfits, rfl⟩ := pricePair_success hprice hsuccess
  have hcap : Computes (mulI64 (max maxFeeSats 0) 1000) (InI64 (max maxFeeSats 0 * 1000))
      (max maxFeeSats 0 * 1000) := computes_i64 _
  refine ⟨h, ?_⟩
  rw [validateRoute_price h hhop hfits hamount]
  constructor
  · rintro ⟨feeMsat, hvalid, -⟩
    obtain ⟨⟨⟩, hchecks, hvalid⟩ := Outcome.bind_eq_ok.mp hvalid
    obtain ⟨maxFeeMsat, hmaxFee, -⟩ := Outcome.bind_eq_ok.mp hvalid
    rw [Outcome.checked_eq_ok] at hmaxFee
    exact ⟨h.descends_iff.mp ((checkHops_ok _ _ _).mp hchecks).2.2, (hcap.eq_some.mp hmaxFee).1⟩
  · rintro ⟨hcovered, hin⟩
    have hdescends := h.descends_iff.mpr hcovered
    have hatleast := last_le_of_descends hdescends h.getLast_route
    have hoverpay : 0 ≤ h.overpay := by
      have htotal := hatleast h.firstHop (by rw [h.route_eq]; exact List.mem_cons_self)
      exact sub_nonneg.mpr htotal
    have hchecks : checkHops 0 none h.route = .ok () := by
      rw [checkHops_ok]
      refine ⟨fun hop hmem => ?_, by simp, hdescends⟩
      have hlast : 0 < (SourceHeard.finalHop pair).amountMsat := by
        simp only [SourceHeard.finalHop]
        omega
      exact hlast.trans_le (hatleast hop hmem)
    have hcost : h.cost = ⌈(h.overpay : ℚ) / 1000⌉ := h.cost_eq hoverpay
    have hwithin : h.overpay ≤ h.cost * 1000 := by
      have hceil := Int.le_ceil ((h.overpay : ℚ) / 1000)
      rw [← hcost, div_le_iff₀ (by norm_num)] at hceil
      exact_mod_cast hceil
    refine ⟨max h.overpay 0, ?_, by rw [max_eq_left hoverpay]; exact hcost.symm⟩
    rw [hchecks, hcap.value hin]
    change (if max maxFeeSats 0 * 1000 < max h.overpay 0 then _ else _) = _
    have hpaid : ¬max maxFeeSats 0 * 1000 < max h.overpay 0 := by
      have hcostMax : h.cost ≤ maxFeeSats := hmax
      omega
    rw [if_neg hpaid]
    rfl

end Accepted

section Samples

/-- A node whose peer asks `finalPpm` for the way back to us, whose gossip holds `edges`, and whose
only route goes over one middle node that is to receive `keptMsat`. -/
def oneMiddleNode (finalPpm keptMsat : ℤ) (edges : List Json) : Env Unit where
  getroutes := fun _ w => (.ok (.obj [("routes", .arr [.obj [("amount_msat", .int 1001000),
    ("path", .arr [
      .obj [("short_channel_id_dir", .str "30x1x0/0"), ("next_node_id", .str "02dd"),
        ("amount_msat", .int keptMsat), ("delay", .int 60)],
      .obj [("short_channel_id_dir", .str "40x1x0/1"), ("next_node_id", .str "02cc"),
        ("amount_msat", .int 1001000), ("delay", .int 50)]])]])]), w)
  askreneCreateLayer := fun _ w => (.ok (), w)
  askreneUpdateChannel := fun _ _ _ w => (.ok (), w)
  askreneRemoveLayer := fun _ w => (.ok (), w)
  askreneListlayers := fun w => (.error ⟨"unknown method"⟩, w)
  listpeerchannels := fun peerId w => (.ok (.obj [("channels", .arr [.obj
    [("peer_id", .str peerId), ("short_channel_id", .str "20x1x0"),
      ("updates", .obj [("remote", .obj [("cltv_expiry_delta", .int 34),
        ("fee_base_msat", .int 0), ("fee_proportional_millionths", .int finalPpm)])])]])]), w)
  listchannelsScid := fun _ w => (.ok (.obj [("channels", .arr edges)]), w)
  now := fun w => (1700000000, w)
  otherMints := fun w => (0, w)
  drain := fun _ l => l
  drain_perm := fun _ _ => .refl _

def gossiped (scid source destination : String) (feePpm baseMsat : ℤ) : Json :=
  .obj [("short_channel_id", .str scid), ("source", .str source), ("destination", .str destination),
    ("fee_per_millionth", .int feePpm), ("base_fee_millisatoshi", .int baseMsat),
    ("delay", .int 6)]

@[reducible] def mutePrinter : SerdeJson := ⟨fun _ => none, fun _ => ""⟩

def samplePair (amountSats : ℤ) : PlannedPairCtx :=
  ⟨"02aa", "10x1x0", "20x1x0", "02bb", "02cc", amountSats, [], 18⟩

def startState : RouterState Unit := beginCycle () 1

def sampleRun (env : Env Unit) (amountSats : ℤ) : Outcome Empty RouteResult × RouterState Unit :=
  let _ : SerdeJson := mutePrinter
  pricePair env (samplePair amountSats) [] startState

def sourceEdge (baseMsat : ℤ) : Json := gossiped "30x1x0" "02bb" "02dd" 200 baseMsat
def middleEdge : Json := gossiped "40x1x0" "02dd" "02cc" 300 1000

def sampleVerdict (env : Env Unit) (maxFeeSats : ℤ) :
    Outcome Empty (Bool × Outcome (String × ℤ) ℤ) := do
  let r ← (sampleRun env 1000).1
  pure (r.success && r.routeCostSats ≤ maxFeeSats,
    validateRoute (executeRequest (samplePair 1000) r maxFeeSats 0))

def plainNode : Env Unit := oneMiddleNode 100 0 [sourceEdge 0, middleEdge]

def sampleEdges : List (SendpayHop × Option ChannelPolicy) :=
  [(⟨"02dd", "30x1x0", 0, 60, 0⟩, some ⟨300, 1000, 6⟩),
    (⟨"02cc", "40x1x0", 1, 50, 1001000⟩, none)]

def plainFinalHop : FinalHopHeard plainNode (samplePair 1000) startState where
  policy := ⟨100, 0, 34⟩
  destCltv := 34
  afterPolicy := _
  afterCltv := _
  policyHeard := rfl
  cltvHeard := rfl

def plainRoutes : RoutesHeard plainNode (samplePair 1000) [] startState :=
  { plainFinalHop with
    layers := [autoNoMppLayer, "rebalance-exclude-1700000000-1"]
    result := _
    afterLayers := _
    afterRoutes := _
    layersHeard := rfl
    routesHeard := rfl }

def plainMiddle : @MiddleHeard Unit mutePrinter plainNode (samplePair 1000) [] startState :=
  let _ := mutePrinter
  { plainRoutes with
    best := _
    hops := sampleEdges.map Prod.fst
    edges := sampleEdges
    afterEdges := _
    chosen := rfl
    edgesHeard := rfl }

def plainSource : @SourceHeard Unit mutePrinter plainNode (samplePair 1000) [] startState :=
  let _ := mutePrinter
  { plainMiddle with
    first := ⟨"02dd", "30x1x0", 0, 60, 1002301⟩
    later := [⟨"02cc", "40x1x0", 1, 50, 1001000⟩]
    sourcePolicy := ⟨200, 0, 6⟩
    afterSource := _
    middle_eq := rfl
    sourceHeard := rfl }

def plainPrice : RouteResult := @SourceHeard.price Unit mutePrinter _ _ _ _ plainSource

theorem plain_run : ∃ t, sampleRun plainNode 1000 = (.ok plainPrice, t) := by
  have hok : ((sampleRun plainNode 1000).1.value.any RouteResult.success) = true := by
    decide +kernel
  rcases hrun : sampleRun plainNode 1000 with ⟨r, t⟩
  rw [hrun] at hok
  cases r with
  | ok r =>
    obtain ⟨heard, -, -, hprice⟩ := @pricePair_success Unit Empty mutePrinter plainNode
      (samplePair 1000) [] startState t r hrun hok
    rw [@SourceHeard.unique Unit mutePrinter _ _ _ _ heard plainSource] at hprice
    exact ⟨t, by rw [hprice]; rfl⟩
  | err e => exact e.elim
  | panic => cases hok

theorem plain_route_pays_every_hop : PaysEveryHop (samplePair 1000)
    [some ⟨200, 0, 6⟩, some ⟨300, 1000, 6⟩, some ⟨100, 0, 34⟩, none] plainPrice := by
  obtain ⟨t, hrun⟩ := plain_run
  obtain ⟨heard, hpays⟩ := @priced_route_pays_every_hop Unit Empty mutePrinter plainNode
    (samplePair 1000) [] startState t plainPrice (by decide) hrun rfl
  obtain rfl := @SourceHeard.unique Unit mutePrinter _ _ _ _ heard plainSource
  apply hpays
  · intro policy hheard
    have hmem : some policy ∈ [some ⟨200, 0, 6⟩, some ⟨300, 1000, 6⟩, some ⟨100, 0, 34⟩, none] :=
      hheard
    simp only [List.mem_cons, Option.some.injEq, reduceCtorEq, List.not_mem_nil, or_false] at hmem
    rcases hmem with rfl | rfl | rfl <;> constructor <;> decide
  · intro edge hedge
    obtain rfl := List.mem_singleton.mp hedge
    rfl

/-- The executor takes the sample route within its cost. -/
theorem plain_route_accepted : ∃ heard, heard = plainSource ∧
    ((∃ feeMsat, validateRoute (executeRequest (samplePair 1000) plainPrice 3 0) = .ok feeMsat ∧
        ⌈(feeMsat : ℚ) / 1000⌉ = plainPrice.routeCostSats) ↔
      @SourceHeard.Covered Unit mutePrinter _ _ _ _ heard ∧ InI64 (max 3 0 * 1000)) := by
  obtain ⟨t, hrun⟩ := plain_run
  obtain ⟨heard, haccepted⟩ := @priced_route_accepted_iff Unit Empty mutePrinter plainNode
    (samplePair 1000) [] startState t plainPrice (by decide) hrun rfl 3 (by decide) 0
  exact ⟨heard, @SourceHeard.unique Unit mutePrinter _ _ _ _ heard plainSource, haccepted⟩

/-- A middle node without a policy keeps an amount below the next one; a negative base fee does the
same; and a cap beyond the range in msat panics. -/
theorem priced_route_refused :
    sampleVerdict (oneMiddleNode 100 900000 [sourceEdge 0]) 10 =
        .ok (true, .err ("increasing_route_amount", 0)) ∧
      sampleVerdict (oneMiddleNode 100 0 [sourceEdge (-5000), middleEdge]) 10 =
        .ok (true, .err ("increasing_route_amount", 0)) ∧
      sampleVerdict (oneMiddleNode 100 0 [sourceEdge 0, middleEdge]) 9223372036854776 =
        .ok (true, .panic) := by
  decide +kernel

end Samples

end CycleRouter
