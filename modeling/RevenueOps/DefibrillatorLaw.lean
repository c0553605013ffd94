import RevenueOps.Defibrillator
import RevenueOps.EngineAttempts
import RevenueOps.EngineQuiet

/-! When a shock is followed by another one. The seams keep a trail of what they reply, so a
condition on their replies is one on the trail. -/
namespace Defibrillator

open FallibleState JsonValue RustNumber RustText OutputLogic StableSelection
open RouteExecutor (RpcFailure ExecutionResult ExecuteRequest)
open RebalanceEngine RebalanceFacade
open EngineAttempts (SameOutcome annotateRetry_outcome mergeRetry_outcome)
open EngineQuiet (QuietSeams NotReserved)

variable {ω α : Type}

section Seams

/-- A reply of a seam. A price without a reply is a router that was not available. -/
inductive Event where
  | funds (reply : Except RpcFailure Json)
  | peerChannels (reply : Except RpcFailure Json)
  | shock (source : String)
  | price (reply : Option (Except RpcFailure RouteResult))
  | attempt (reply : ExecutionResult) (sendpayAttempted : Bool)

def Event.IsReply : Event → Prop
  | .price _ => True
  | .attempt _ _ => True
  | _ => False

structure Witnessed (ω : Type) where
  world : ω
  trail : List Event

/-- The seams, and whether the executor attempts a sendpay for a request. -/
structure ShockSeams (ω : Type) extends EngineDeps ω where
  sendpayAttempted : ExecuteRequest → ω → Bool

def seen (f : ω → α × ω) (events : α → List Event) (w : Witnessed ω) : α × Witnessed ω :=
  ((f w.world).1, ⟨(f w.world).2, w.trail ++ events (f w.world).1⟩)

def unseen (f : ω → α × ω) : Witnessed ω → α × Witnessed ω := seen f fun _ => []

def witnessed (seams : ShockSeams ω) : EngineDeps (Witnessed ω) :=
  { config := seams.config
    policy := seams.policy.map fun getPolicy peerId => unseen (getPolicy peerId)
    now := unseen seams.now
    tryLock := unseen seams.tryLock
    getinfoId := unseen seams.getinfoId
    beginCycle := seen seams.beginCycle fun available => if available then [] else [.price none]
    pricePair := fun ctx exclude => seen (seams.pricePair ctx exclude) fun r => [.price (some r)]
    execute := fun req w => seen (seams.execute req)
      (fun r => [.attempt r (seams.sendpayAttempted req w.world)]) w
    insertOrAdoptHistory := fun row => seen (seams.insertOrAdoptHistory row) fun _ =>
      if row.rebalanceType = "diagnostic" then [.shock row.fromChannel] else []
    reserveBudget := fun req => unseen (seams.reserveBudget req)
    pendingSettlementRows := unseen seams.pendingSettlementRows
    listsendpays := fun hash => unseen (seams.listsendpays hash)
    listpeerchannelsFull := unseen seams.listpeerchannelsFull
    hasObservations := fun now => unseen (seams.hasObservations now)
    perform := fun call w => { w with world := seams.perform call w.world } }

def FacadeDeps.witnessed (facade : FacadeDeps ω) : FacadeDeps (Witnessed ω) :=
  { getFunds := seen facade.getFunds fun r => [.funds r]
    getPeerChannels := seen facade.getPeerChannels fun r => [.peerChannels r]
    getTotalRebalanceFees := fun since => unseen (facade.getTotalRebalanceFees since)
    setChannelProbe := fun channelId probe w =>
      { w with world := facade.setChannelProbe channelId probe w.world }
    estimateInboundFee := fun peerId => unseen (facade.estimateInboundFee peerId) }

def trail (s : EngineState (Witnessed ω)) : List Event := s.world.trail

end Seams

section Courses

/-- How the exclusion retry went, by what the router and the executor replied. -/
inductive Retry where
  | skipped
  | unavailable
  | pricingFailed (failure : RpcFailure)
  | unrouted (route : RouteResult)
  | overBudget (route : RouteResult)
  | executed (route : RouteResult) (reply : ExecutionResult) (sent : Bool)

def Retry.events : Retry → List Event
  | .skipped => []
  | .unavailable => [.price none]
  | .pricingFailed failure => [.price (some (.error failure))]
  | .unrouted route => [.price (some (.ok route))]
  | .overBudget route => [.price (some (.ok route))]
  | .executed route reply sent => [.price (some (.ok route)), .attempt reply sent]

def Retries (first : ExecutionResult) : Prop :=
  first.success = false ∧ first.paymentPending = false ∧ distinctTrimmed first.excludedChannels ≠ []

def Retry.Fits (first : ExecutionResult) : Retry → Prop
  | .skipped => ¬ Retries first
  | .unavailable => Retries first
  | .pricingFailed _ => Retries first
  | .unrouted route => Retries first ∧ route.success = false
  | .overBudget route => Retries first ∧ route.success = true
  | .executed route _ _ => Retries first ∧ route.success = true

def Retry.reply (first : ExecutionResult) : Retry → ExecutionResult
  | .executed _ reply _ => reply
  | _ => first

/-- The text is in a reply that survives into the error, or is a note's own. -/
def Retry.Mentions (first : ExecutionResult) (text : String) : Retry → Prop
  | .pricingFailed failure =>
    contains (errorText first) text = true ∨ contains failure.message text = true
  | .unrouted route => contains (errorText first) text = true ∨ text = "no_route" ∨
    contains (routeError route) text = true
  | .executed _ reply _ => contains (errorText reply) text = true
  | _ => contains (errorText first) text = true

inductive Rung where
  | pricingFailed (failure : RpcFailure)
  | unrouted (route : RouteResult)
  | overBudget (route : RouteResult)
  | executed (route : RouteResult) (reply : ExecutionResult) (sent : Bool)

def Rung.events : Rung → List Event
  | .pricingFailed failure => [.price (some (.error failure))]
  | .unrouted route => [.price (some (.ok route))]
  | .overBudget route => [.price (some (.ok route))]
  | .executed route reply sent => [.price (some (.ok route)), .attempt reply sent]

def Rung.Fits : Rung → Prop
  | .pricingFailed _ => True
  | .unrouted route => route.success = false
  | .overBudget route => route.success = true
  | .executed route _ _ => route.success = true

/-- The replies that one execution met: none from the executor, or a first attempt with what came
after it. A ladder may be cut short for want of a router. -/
inductive Course where
  | unpaid (prices : List (Option (Except RpcFailure RouteResult))) (error : String)
  | paid (route : RouteResult) (first : ExecutionResult) (sent : Bool) (retry : Retry)
      (rungs : List Rung) (cut : Bool)

def Course.events : Course → List Event
  | .unpaid prices _ => prices.map .price
  | .paid route first sent retry rungs cut =>
    [.price (some (.ok route)), .attempt first sent] ++ retry.events ++
      rungs.flatMap Rung.events ++ if cut then [.price none] else []

def Course.Fits : Course → Prop
  | .unpaid _ _ => True
  | .paid _ first _ retry rungs _ => retry.Fits first ∧ ∀ rung ∈ rungs, rung.Fits

def Course.Sent (c : Course) : Prop := ∃ reply, Event.attempt reply true ∈ c.events

def lastReply (rungs : List Rung) : Option ExecutionResult :=
  rungs.getLast? >>= fun
    | .executed _ reply _ => some reply
    | _ => none

/-- Either the reply before the ladder or the one that ended it has the outcome. -/
def Course.Replied (outcome : ExecutionResult → Bool) : Course → Prop
  | .unpaid _ _ => False
  | .paid _ first _ retry rungs _ =>
    outcome (retry.reply first) = true ∨ ∃ reply, lastReply rungs = some reply ∧
      outcome reply = true

def Course.Succeeded : Course → Prop := Course.Replied ExecutionResult.success
def Course.Pending : Course → Prop := Course.Replied ExecutionResult.paymentPending

def Course.Mentions (text : String) : Course → Prop
  | .unpaid _ error => contains error text = true
  | .paid _ first _ retry rungs _ => retry.Mentions first text ∨
    (text = "no_route" ∧ ∃ route, rungs.getLast? = some (.unrouted route))

/-- Nothing settled or pends, no budget block, and a marker of a failure to find a route. -/
def Course.Advances (c : Course) : Prop :=
  ¬ c.Succeeded ∧ ¬ c.Pending ∧ ¬ c.Mentions localBudgetBlock ∧
    ∃ marker ∈ sourceRouteFailureMarkers, c.Mentions marker

end Courses

section Quiet

variable (seams : ShockSeams ω)

theorem adds_seen {kind : Event → Prop} {f : ω → α × ω} {events : α → List Event}
    (h : ∀ a, ∀ e ∈ events a, kind e) :
    Adds trail kind (ask (seen f events) : Engine (Witnessed ω) α)
      (Returning fun a new => new = events a) := by
  intro s
  rw [wp_ofRel]
  exact ⟨_, rfl, h _, rfl⟩

theorem quiet_unseen {kind : Event → Prop} {f : ω → α × ω} :
    Quiet trail kind (ask (unseen f) : Engine (Witnessed ω) α) := by
  intro s
  rw [wp_ofRel]
  exact ⟨[], rfl, by simp, rfl⟩

theorem quiet_tell {kind : Event → Prop} (call : EngineCall) :
    Quiet trail kind (tell (witnessed seams) call) := by
  intro s
  rw [wp_ofRel]
  exact ⟨[], (List.append_nil _).symm, by simp, rfl⟩

theorem quiet_ask {kind : Event → Prop} (call : α → EngineCall) (f : ω → α × ω) :
    Quiet trail kind (askLogged (unseen f) call : Engine (Witnessed ω) α) := by
  intro s
  rw [wp_ofRel]
  exact ⟨[], rfl, by simp, rfl⟩

theorem quietSeams : QuietSeams trail Event.IsReply (witnessed seams) := by
  constructor
  · intro getPolicy hpolicy peerId
    obtain ⟨policy, -, rfl⟩ := Option.map_eq_some_iff.mp hpolicy
    exact quiet_unseen
  · exact quiet_unseen
  · exact quiet_unseen
  · exact fun now => quiet_unseen
  · intro row hrow s
    rw [wp_ofRel]
    refine ⟨[], ?_, by simp, rfl⟩
    simp [askLogged, witnessed, seen, trail, hrow]
  · exact fun req => quiet_ask _ _
  · exact quiet_tell seams
  · exact fun s t h => by rw [trail, trail, h]

theorem quiet_ensureOurId : Quiet trail Event.IsReply (ensureOurId (witnessed seams)) :=
  (quietSeams seams).ensureOurId

theorem quiet_pairPolicyAllowed (pair : PairCandidate) :
    Quiet trail Event.IsReply (pairPolicyAllowed (witnessed seams) pair) :=
  (quietSeams seams).pairPolicyAllowed pair

theorem quiet_recordRebalanceResult (rebalanceId : Option ℤ) (result : ExecutionResult)
    (pair : PairCandidate) (accountCosts : Bool) :
    Quiet trail Event.IsReply
      (recordRebalanceResult (witnessed seams) rebalanceId result pair accountCosts) :=
  (quietSeams seams).recordRebalanceResult rebalanceId result pair accountCosts

theorem quiet_finishExecutionBudget (reservationId : String) (reserved : Bool)
    (result : ExecutionResult) :
    Quiet trail Event.IsReply
      (finishExecutionBudget (witnessed seams) reservationId reserved result) :=
  (quietSeams seams).finishExecutionBudget reservationId reserved result

theorem quiet_pushSegmentObservationSnapshot :
    Quiet trail Event.IsReply (pushSegmentObservationSnapshot (witnessed seams)) :=
  (quietSeams seams).pushSegmentObservationSnapshot

def Unpaid (r : ExecutionResult) : Prop := r.success = false ∧ r.paymentPending = false

theorem unpaid_notReserved {r : ExecutionResult} (h : NotReserved r) : Unpaid r := by
  cases h with
  | zeroBudget _ => exact ⟨rfl, rfl⟩
  | blocked _ _ block => cases block <;> exact ⟨rfl, rfl⟩

theorem adds_reserveExecutionBudget (pair : PairCandidate) (reservationId : String) :
    Adds trail Event.IsReply (reserveExecutionBudget (witnessed seams) pair reservationId)
      (Returning fun out new => new = [] ∧ ∀ r, out.2 = some r → Unpaid r) := by
  refine ((quietSeams seams).reserveExecutionBudget pair reservationId).mono fun r new hr => ?_
  cases r with
  | ok out => exact ⟨hr.1, fun r h => unpaid_notReserved (hr.2 r h)⟩
  | err e => trivial
  | panic => trivial

theorem quiet_historyId (pair : PairCandidate) (rebalanceId : Option ℤ) :
    Quiet trail Event.IsReply (historyId (witnessed seams) pair rebalanceId) :=
  (quietSeams seams).historyId pair rebalanceId

theorem quiet_reservationIdOf (pair : PairCandidate) (rebalanceId : Option ℤ) :
    Quiet trail Event.IsReply (reservationIdOf pair rebalanceId : Engine (Witnessed ω) String) := by
  cases rebalanceId with
  | some id => exact Quiet.pure _
  | none =>
    refine (Quiet.read _).bind fun nonce =>
      Quiet.bind (Quiet.modify fun s => ?_) fun _ => Quiet.pure _
    rfl

end Quiet

section Attempts

variable (seams : ShockSeams ω)

theorem adds_routePairFresh (pair : PairCandidate) (exclude : List String) :
    Adds trail Event.IsReply (routePairFresh (witnessed seams) pair exclude)
      (Returning fun reply new => new = [.price reply]) := by
  have hcycle : Adds trail Event.IsReply (ask (witnessed seams).beginCycle)
      (Returning fun available new => new = if available then [] else [.price none]) :=
    @adds_seen _ _ _ seams.beginCycle (fun available => if available then [] else [.price none])
      (by simp [Event.IsReply])
  have hprice : ∀ ctx, Adds trail Event.IsReply (ask ((witnessed seams).pricePair ctx exclude))
      (Returning fun reply new => new = [.price (some reply)]) := fun ctx =>
    @adds_seen _ _ _ (seams.pricePair ctx exclude) (fun reply => [.price (some reply)])
      (by simp [Event.IsReply])
  refine hcycle.bindReturning fun available new hnew => ?_
  subst hnew
  cases available with
  | false => exact Adds.pure rfl
  | true =>
    refine Adds.afterQuiet (quiet_ensureOurId seams) fun ourId => ?_
    refine (hprice _).bindReturning fun reply new hnew => Adds.pure ?_
    rw [hnew]
    rfl

theorem adds_executeRequest (pair : PairCandidate) :
    Adds trail Event.IsReply (executeRequest (witnessed seams) pair)
      (Returning fun reply new => ∃ sent, new = [.attempt reply sent]) := by
  refine Adds.afterQuiet ?_ fun req => ?_
  · refine (quiet_ensureOurId seams).bind fun ourId => ?_
    exact quiet_unseen.bind fun now => Quiet.pure _
  · intro s
    rw [wp_ofRel]
    exact ⟨_, rfl, by simp [Event.IsReply], _, rfl⟩

def decisive : List String := localBudgetBlock :: sourceRouteFailureMarkers

theorem decisive_chars {text : String} (h : text ∈ decisive) :
    ';' ∉ text.toList ∧ ' ' ∉ text.toList := by
  revert h text
  decide

theorem not_contains_empty {text : String} (h : text ∈ decisive) : ¬ text.toList <:+: [] := by
  revert h text
  decide

theorem contains_note {text error note detail : String} (h : text ∈ decisive) :
    contains (error ++ ("; " ++ note ++ " " ++ detail)) text = true ↔
      contains error text = true ∨ contains note text = true ∨ contains detail text = true := by
  obtain ⟨hsemi, hblank⟩ := decisive_chars h
  have hlist : (error ++ ("; " ++ note ++ " " ++ detail)).toList =
      error.toList ++ ';' :: ([] ++ ' ' :: (note.toList ++ ' ' :: detail.toList)) := by
    simp
  simp only [contains_iff]
  rw [hlist, infix_append_cons hsemi, infix_append_cons hblank, infix_append_cons hblank]
  simp only [not_contains_empty h, false_or]

theorem not_contains_budget {text : String} (h : text ∈ decisive) (cost budget : ℤ) :
    contains (toString cost ++ " > " ++ toString budget) text = false := by
  have hunder : '_' ∈ text.toList := by
    revert h text
    decide
  rw [Bool.eq_false_iff]
  intro hin
  have hmem := (contains_iff.mp hin).subset hunder
  rw [String.toList_append, String.toList_append] at hmem
  have hnumber : ∀ n : ℤ, '_' ∉ (toString n).toList := by
    intro n hn
    rcases mem_toString_int hn with h | h
    · exact absurd h (by decide)
    · exact absurd h (by decide)
  rcases List.mem_append.mp hmem with hmem | hmem
  · rcases List.mem_append.mp hmem with hmem | hmem
    · exact hnumber cost hmem
    · exact absurd hmem (by decide)
  · exact hnumber budget hmem

theorem annotateRetry_error {first r : ExecutionResult} {note : String} {data : JsonMap}
    (h : annotateRetry first note data = some r) : errorText r = errorText first ++ note := by
  obtain ⟨attempts, -, h⟩ := Option.bind_eq_some_iff.mp h
  obtain rfl := Option.some.inj h
  rfl

theorem mergeRetry_error {first retry r : ExecutionResult} {exclusions : List String}
    {routeCostSats : ℤ} (h : mergeRetry first retry exclusions routeCostSats = some r) :
    errorText r = errorText retry := by
  obtain ⟨attempts, -, h⟩ := Option.bind_eq_some_iff.mp h
  obtain rfl := Option.some.inj h
  rfl

structure Retried (first : ExecutionResult) (retry : Retry) (r : ExecutionResult) : Prop where
  fits : retry.Fits first
  outcome : SameOutcome r (retry.reply first)
  mentions : ∀ text ∈ decisive, contains (errorText r) text = true ↔ retry.Mentions first text

theorem adds_retryWithExclusions (pair : PairCandidate) (first : ExecutionResult) :
    Adds trail Event.IsReply (retryWithExclusions (witnessed seams) pair first)
      (Returning fun out new => ∃ retry : Retry,
        new = retry.events ∧ Retried first retry out.1) := by
  have hsame : ∀ retry : Retry, retry.Fits first → retry.reply first = first →
      (∀ text, retry.Mentions first text = (contains (errorText first) text = true)) →
      Retried first retry first := by
    intro retry hfits hreply hmentions
    refine ⟨hfits, ?_, fun text _ => ?_⟩
    · rw [hreply]
      exact .refl first
    · rw [hmentions]
  refine Adds.ite (fun hended => Adds.pure ⟨.skipped, rfl, hsame _ ?_ rfl fun _ => rfl⟩)
    fun hfailed => ?_
  · rintro ⟨hsuccess, hpending, -⟩
    rw [hsuccess, hpending] at hended
    simp at hended
  refine Adds.ite (fun hnone => Adds.pure ⟨.skipped, rfl, hsame _ ?_ rfl fun _ => rfl⟩)
    fun hsome => ?_
  · exact fun h => h.2.2 hnone
  have hretries : Retries first := by
    obtain ⟨hsuccess, hpending⟩ := not_or.mp hfailed
    exact ⟨by simpa using hsuccess, by simpa using hpending, hsome⟩
  refine (adds_routePairFresh seams pair _).bindReturning fun priced new hnew => ?_
  subst hnew
  match priced with
  | none => exact Adds.pure ⟨.unavailable, rfl, hsame _ hretries rfl fun _ => rfl⟩
  | some (.error exc) =>
    refine Adds.after_checked fun r hr => Adds.pure ⟨.pricingFailed exc, rfl, ?_⟩
    refine ⟨hretries, annotateRetry_outcome hr, fun text htext => ?_⟩
    have hnote : contains "retry_pricing_failed:" text = false := by
      revert htext text
      decide
    rw [annotateRetry_error hr, show s!"; retry_pricing_failed: {exc.message}" =
      "; " ++ "retry_pricing_failed:" ++ " " ++ exc.message from rfl, contains_note htext, hnote]
    simp [Retry.Mentions]
  | some (.ok route) =>
    refine Adds.ite (fun hno => ?_) fun hroute => Adds.after_checked fun budget _ => ?_
    · refine Adds.after_checked fun r hr => Adds.pure ⟨.unrouted route, rfl, ?_⟩
      refine ⟨⟨hretries, by simpa using hno⟩, annotateRetry_outcome hr, fun text htext => ?_⟩
      have hnote : contains "retry_no_route:" text = true ↔ text = "no_route" := by
        revert htext text
        decide
      rw [annotateRetry_error hr, show s!"; retry_no_route: {routeError route}" =
        "; " ++ "retry_no_route:" ++ " " ++ routeError route from rfl, contains_note htext, hnote]
      rfl
    have hfits : Retries first ∧ route.success = true := ⟨hretries, by simpa using hroute⟩
    refine Adds.ite (fun _ => ?_) fun _ => ?_
    · refine Adds.after_checked fun r hr => Adds.pure ⟨.overBudget route, rfl, ?_⟩
      refine ⟨hfits, annotateRetry_outcome hr, fun text htext => ?_⟩
      have hnote : contains "retry_route_over_budget:" text = false := by
        revert htext text
        decide
      have hsplit : s!"; retry_route_over_budget: {route.routeCostSats} > {budget}" =
          "; " ++ "retry_route_over_budget:" ++ " " ++
            (toString route.routeCostSats ++ " > " ++ toString budget) := by
        rw [← String.append_assoc, ← String.append_assoc]
        rfl
      rw [annotateRetry_error hr, hsplit, contains_note htext, hnote, not_contains_budget htext]
      simp [Retry.Mentions]
    refine (adds_executeRequest seams _).bindReturning fun reply new hnew => ?_
    obtain ⟨sent, rfl⟩ := hnew
    refine Adds.after_checked fun r hr => Adds.pure ⟨.executed route reply sent, rfl, ?_⟩
    refine ⟨hfits, mergeRetry_outcome hr, fun text _ => ?_⟩
    rw [mergeRetry_error hr]
    rfl

def Rung.status : Rung → String
  | .pricingFailed _ => "pricing_error"
  | .unrouted _ => "no_route"
  | .overBudget _ => "route_over_budget"
  | .executed .. => "execution_failed"

def attemptStatus (attempt : Json) : String := ((attempt.get "status") >>= Json.asStr).getD ""

def Rung.Failed : Rung → Prop
  | .executed _ reply _ => reply.success = false ∧ reply.paymentPending = false
  | _ => True

def RungLeads : LadderStep → List Event → Prop
  | .unavailable, new => new = [.price none]
  | .failed _ attempt _, new => ∃ rung : Rung, new = rung.events ∧
    attemptStatus attempt = rung.status ∧ rung.Fits ∧ rung.Failed
  | .finished r _, new => ∃ route reply sent, new = (Rung.executed route reply sent).events ∧
    route.success = true ∧ SameOutcome r reply ∧
      (reply.success = true ∨ reply.paymentPending = true)

theorem judgeRung_leads (prior : ExecutionResult) (originalAmount amountSats routeCostSats : ℤ)
    (partialAttempts : List Json) (totalAttempts : ℤ) (pair : PairCandidate) (route : RouteResult)
    (reply : ExecutionResult) (sent : Bool) (hroute : route.success = true) :
    RungLeads (judgeRung prior reply originalAmount amountSats routeCostSats partialAttempts
      totalAttempts pair) (Rung.executed route reply sent).events := by
  unfold judgeRung
  by_cases hsuccess : reply.success = true
  · rw [if_pos hsuccess]
    exact ⟨route, reply, sent, rfl, hroute, ⟨rfl, rfl, rfl⟩, .inl hsuccess⟩
  · rw [if_neg hsuccess]
    by_cases hpending : reply.paymentPending = true
    · rw [if_pos hpending]
      exact ⟨route, reply, sent, rfl, hroute, ⟨rfl, rfl, rfl⟩, .inr hpending⟩
    · rw [if_neg hpending]
      have hfailed : Rung.Failed (.executed route reply sent) :=
        ⟨by simpa using hsuccess, by simpa using hpending⟩
      exact ⟨.executed route reply sent, rfl, rfl, hroute, hfailed⟩

theorem adds_ladderRung (prior : ExecutionResult) (originalAmount originalBudget amountSats : ℤ)
    (partialAttempts : List Json) (totalAttempts : ℤ) (pair : PairCandidate) :
    Adds trail Event.IsReply (ladderRung (witnessed seams) prior originalAmount originalBudget
      amountSats partialAttempts totalAttempts pair) (Returning RungLeads) := by
  refine (adds_routePairFresh seams _ _).bindReturning fun priced new hnew => ?_
  subst hnew
  match priced with
  | none => exact Adds.pure rfl
  | some (.error exc) => exact Adds.pure ⟨.pricingFailed exc, rfl, rfl, trivial, trivial⟩
  | some (.ok route) =>
    refine Adds.ite (fun hno => Adds.pure ⟨.unrouted route, rfl, rfl, ?_, trivial⟩) fun hno => ?_
    · have hunrouted : route.success = false := by simpa using hno
      exact hunrouted
    have hroute : route.success = true := by simpa using hno
    refine Adds.after_checked fun budget _ => ?_
    refine Adds.ite (fun _ => Adds.pure ⟨.overBudget route, rfl, rfl, hroute, trivial⟩) fun _ => ?_
    refine (adds_executeRequest seams _).bindReturning fun reply new hnew => ?_
    obtain ⟨sent, rfl⟩ := hnew
    refine Adds.after_checked fun total _ => Adds.pure ?_
    exact judgeRung_leads prior _ _ _ _ _ _ route reply sent hroute

/-- What the ladder leads to, by its rungs: the last one finished it, or none did. -/
def LadderLeads (before : List Json) (rungs : List Rung) : LadderOutcome → Prop
  | .finished r _ => (∀ rung ∈ rungs, rung.Fits) ∧ ∃ route reply sent,
    rungs.getLast? = some (.executed route reply sent) ∧ SameOutcome r reply ∧
      (reply.success = true ∨ reply.paymentPending = true)
  | .exhausted attempts _ => (∀ rung ∈ rungs, rung.Fits) ∧ (∀ rung ∈ rungs, rung.Failed) ∧
    (attempts.getLast?.map attemptStatus) =
      (rungs.getLast?.map Rung.status).or (before.getLast?.map attemptStatus)

def ladderEvents (rungs : List Rung) (cut : Bool) : List Event :=
  rungs.flatMap Rung.events ++ if cut then [.price none] else []

theorem adds_ladder (prior : ExecutionResult) (originalAmount originalBudget : ℤ)
    (amounts : List ℤ) (partialAttempts : List Json) (totalAttempts : ℤ) (pair : PairCandidate) :
    Adds trail Event.IsReply (ladder (witnessed seams) prior originalAmount originalBudget amounts
      partialAttempts totalAttempts pair)
      (Returning fun out new => ∃ rungs cut, new = ladderEvents rungs cut ∧
        LadderLeads partialAttempts rungs out) := by
  induction amounts generalizing partialAttempts totalAttempts pair with
  | nil => exact Adds.pure ⟨[], false, rfl, by simp [LadderLeads]⟩
  | cons amountSats amounts ih =>
    refine (adds_ladderRung seams prior _ _ amountSats _ _ pair).bindReturning
      fun step new hstep => ?_
    cases step with
    | unavailable =>
      obtain rfl := hstep
      exact Adds.pure ⟨[], true, rfl, by simp [LadderLeads]⟩
    | finished r p =>
      obtain ⟨route, reply, sent, rfl, hroute, hout⟩ := hstep
      refine Adds.pure ⟨[.executed route reply sent], false, rfl, ?_, route, reply, sent, rfl, hout⟩
      exact List.forall_mem_singleton.mpr hroute
    | failed p attempt total =>
      obtain ⟨rung, rfl, hstatus, hfits, hfailed⟩ := hstep
      refine (ih (partialAttempts ++ [attempt]) total p).mono ?_
      intro out more hout
      cases out with
      | ok out =>
        obtain ⟨rungs, cut, rfl, hleads⟩ := hout
        refine ⟨rung :: rungs, cut, by simp [ladderEvents], ?_⟩
        cases out with
        | finished r p =>
          obtain ⟨hrest, route, reply, sent, hlast, hout⟩ := hleads
          refine ⟨List.forall_mem_cons.mpr ⟨hfits, hrest⟩, route, reply, sent, ?_, hout⟩
          rw [List.getLast?_cons, hlast]
          rfl
        | exhausted attempts total =>
          obtain ⟨hrest, hrestFailed, hattempts⟩ := hleads
          refine ⟨List.forall_mem_cons.mpr ⟨hfits, hrest⟩,
            List.forall_mem_cons.mpr ⟨hfailed, hrestFailed⟩, ?_⟩
          · have hlast : (rung :: rungs).getLast? = some (rungs.getLast?.getD rung) :=
              List.getLast?_cons
            rw [hattempts, List.getLast?_append, hlast]
            cases rungs.getLast? with
            | none => simp [hstatus]
            | some last => simp
      | err e => trivial
      | panic => trivial

structure Laddered (prior : ExecutionResult) (rungs : List Rung) (r : ExecutionResult) : Prop where
  fits : ∀ rung ∈ rungs, rung.Fits
  success : r.success = true ↔
    prior.success = true ∨ ∃ reply, lastReply rungs = some reply ∧ reply.success = true
  pending : r.paymentPending = true ↔ prior.paymentPending = true ∨
    ∃ reply, lastReply rungs = some reply ∧ reply.paymentPending = true
  mentions : r.success = false → r.paymentPending = false → ∀ text ∈ decisive,
    (contains (errorText r) text = true ↔ contains (errorText prior) text = true ∨
      (text = "no_route" ∧ ∃ route, rungs.getLast? = some (.unrouted route)))

theorem Laddered.skipped (prior : ExecutionResult) : Laddered prior [] prior := by
  constructor <;> simp [lastReply]

theorem lastReply_failed {rungs : List Rung} (h : ∀ rung ∈ rungs, rung.Failed)
    {reply : ExecutionResult} (hreply : lastReply rungs = some reply) :
    reply.success = false ∧ reply.paymentPending = false := by
  obtain ⟨rung, hrung, hlast⟩ := Option.bind_eq_some_iff.mp hreply
  have hfailed := h rung (List.mem_of_getLast? hrung)
  cases rung with
  | executed route q sent =>
    obtain rfl := Option.some.inj hlast
    exact hfailed
  | _ => cases hlast

theorem contains_status {text : String} (h : text ∈ decisive) (rung : Rung) :
    contains rung.status text = true ↔ text = "no_route" ∧ ∃ route, rung = .unrouted route := by
  have hother : ∀ status ∈ ["pricing_error", "route_over_budget", "execution_failed"],
      contains status text = false := by
    revert h text
    decide
  cases rung with
  | unrouted route =>
    have hroute : contains "no_route" text = true ↔ text = "no_route" := by
      revert h text
      decide
    simp [Rung.status, hroute]
  | pricingFailed failure => simp [Rung.status, hother]
  | overBudget route => simp [Rung.status, hother]
  | executed route reply sent => simp [Rung.status, hother]

theorem exhausted_laddered {prior : ExecutionResult} {originalAmount totalAttempts : ℤ}
    {attempts : List Json} {rungs : List Rung}
    (h : LadderLeads [] rungs (.exhausted attempts totalAttempts)) :
    Laddered prior rungs (exhaustedResult prior originalAmount attempts totalAttempts) := by
  obtain ⟨hfits, hfailed, hlast⟩ := h
  rw [List.getLast?_nil, Option.map_none, Option.or_none] at hlast
  constructor
  · exact hfits
  · constructor
    · exact .inl
    · rintro (h | ⟨reply, hreply, h⟩)
      · exact h
      · rw [(lastReply_failed hfailed hreply).1] at h
        cases h
  · constructor
    · exact .inl
    · rintro (h | ⟨reply, hreply, h⟩)
      · exact h
      · rw [(lastReply_failed hfailed hreply).2] at h
        cases h
  · intro _ _ text htext
    cases hattempt : attempts.getLast? with
    | none =>
      have hnone : rungs.getLast? = none := by
        rw [hattempt] at hlast
        simpa using hlast.symm
      simp [exhaustedResult, hattempt, hnone, errorText]
    | some last =>
      rw [hattempt, Option.map_some] at hlast
      obtain ⟨rung, hrung, hstatus⟩ := Option.map_eq_some_iff.mp hlast.symm
      have herror : errorText (exhaustedResult prior originalAmount attempts totalAttempts) =
          errorText prior ++ ("; " ++ "partial_retry_failed:" ++ " " ++ rung.status) := by
        rw [hstatus, ← String.append_assoc]
        simp only [exhaustedResult, hattempt, errorText]
        rfl
      have hnote : contains "partial_retry_failed:" text = false := by
        revert htext text
        decide
      rw [herror, contains_note htext, hnote, contains_status htext, hrung]
      simp

theorem adds_retryWithPartialAmounts [UnicodeCase] (pair : PairCandidate)
    (prior : ExecutionResult) :
    Adds trail Event.IsReply (retryWithPartialAmounts (witnessed seams) pair prior)
      (Returning fun out new => ∃ rungs cut, new = ladderEvents rungs cut ∧
        Laddered prior rungs out.1) := by
  have hskipped : ∃ rungs cut, [] = ladderEvents rungs cut ∧ Laddered prior rungs prior :=
    ⟨[], false, rfl, .skipped prior⟩
  refine Adds.ite (fun _ => Adds.pure hskipped) fun hpending => ?_
  refine Adds.ite (fun _ => Adds.pure hskipped) fun hallows => ?_
  refine (adds_ladder seams prior _ _ _ _ _ _).bindReturning fun out new hout => ?_
  obtain ⟨rungs, cut, rfl, hleads⟩ := hout
  cases out with
  | exhausted attempts total =>
    refine Adds.pure ⟨rungs, cut, by simp, ?_⟩
    exact exhausted_laddered hleads
  | finished r p =>
    obtain ⟨hfits, route, reply, sent, hlast, hsame, hended⟩ := hleads
    have hreply : lastReply rungs = some reply := by
      rw [lastReply, hlast]
      rfl
    have hfailed : prior.success = false := by
      rw [Bool.not_eq_true, Bool.not_eq_false'] at hallows
      by_contra hsuccess
      rw [failureAllowsPartial, if_pos (.inl (by simpa using hsuccess))] at hallows
      cases hallows
    refine Adds.pure ⟨rungs, cut, by simp, ?_⟩
    constructor
    · exact hfits
    · rw [hsame.success, hfailed]
      simp [hreply]
    · rw [hsame.pending]
      simp [hreply, hpending]
    · intro hs hp
      rw [hsame.success] at hs
      rw [hsame.pending] at hp
      rw [hs, hp] at hended
      simp at hended

end Attempts

end Defibrillator
