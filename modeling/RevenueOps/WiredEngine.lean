import RevenueOps.EngineQuiet
import RevenueOps.FeeEnvelope
import RevenueOps.PaymentVerdicts

/-! The engine with the native executor behind its executor seam. Every attempt is kept with its
calls and its reply, so the result of an execution is followed back to the attempt that it shows. -/
namespace WiredEngine

open FallibleState JsonValue OutputLogic RebalanceEngine
open RouteExecutor (ExecutionResult ExecuteRequest PaymentRpc PaymentMode RpcCall RpcFailure
  SegmentRecord)
open RustText PaymentVerdicts EngineQuiet
open RebalanceExecution (startsWith_append startsWith_extend not_startsWith)

variable {ν α : Type}

/-- A run of the executor. A panic unwinds the whole call, so nobody reads its reply. -/
structure Attempt where
  request : ExecuteRequest
  calls : List RpcCall
  reply : ExecutionResult
  panicked : Bool

structure Site (ν : Type) where
  node : ν
  attempts : List Attempt

/-- The seams of the engine, the payment methods of the executor, and what is done with the
segment observations that it records. -/
structure Wiring (ν : Type) where
  seams : EngineDeps ν
  rpc : PaymentRpc ν
  mode : PaymentMode
  observe : List SegmentRecord → ν → ν

def onNode (f : ν → α × ν) (site : Site ν) : α × Site ν :=
  ((f site.node).1, { site with node := (f site.node).2 })

namespace Wiring

def execute [UnicodeCase] [SerdeJson] (w : Wiring ν) (req : ExecuteRequest) (site : Site ν) :
    ExecutionResult × Site ν :=
  let run := RouteExecutor.execute w.rpc w.mode req (.start site.node)
  let reply := run.1.value.getD (failedResult "" 0)
  (reply,
    { node := w.observe run.2.observations run.2.world
      attempts := site.attempts ++ [⟨req, run.2.calls, reply, run.1.value.isNone⟩] })

def deps [UnicodeCase] [SerdeJson] (w : Wiring ν) : EngineDeps (Site ν) :=
  { config := w.seams.config
    policy := w.seams.policy.map fun getPolicy peerId => onNode (getPolicy peerId)
    now := onNode w.seams.now
    tryLock := onNode w.seams.tryLock
    getinfoId := onNode w.seams.getinfoId
    beginCycle := onNode w.seams.beginCycle
    pricePair := fun ctx exclude => onNode (w.seams.pricePair ctx exclude)
    execute := w.execute
    insertOrAdoptHistory := fun row => onNode (w.seams.insertOrAdoptHistory row)
    reserveBudget := fun req => onNode (w.seams.reserveBudget req)
    pendingSettlementRows := onNode w.seams.pendingSettlementRows
    listsendpays := fun hash => onNode (w.seams.listsendpays hash)
    listpeerchannelsFull := onNode w.seams.listpeerchannelsFull
    hasObservations := fun now => onNode (w.seams.hasObservations now)
    perform := fun call site => { site with node := w.seams.perform call site.node } }

/-- RebalanceEngine::execute_candidate over the native executor, with its attempts. -/
def executeCandidate [UnicodeCase] [SerdeJson] (w : Wiring ν) (candidate : RebalanceCandidate)
    (rebalanceId : ℤ) (kw : EngineKwargs) (s : EngineState ν) :
    Outcome Empty ExecutionResult × List Attempt :=
  let run := RebalanceEngine.executeCandidate w.deps candidate rebalanceId kw
    (.start ⟨s.world, []⟩ s.ourId s.reservationNonce s.inflight)
  (if run.2.world.attempts.any Attempt.panicked then .panic else run.1, run.2.world.attempts)

end Wiring

def attempts (s : EngineState (Site ν)) : List Attempt := s.world.attempts

def Native [UnicodeCase] [SerdeJson] (mode : PaymentMode) (a : Attempt) : Prop :=
  Talked mode a.calls ∧ (a.panicked = false → Labels mode (verdict a.calls) a.reply)

def Unpaid (r : ExecutionResult) : Prop := r.success = false ∧ r.paymentPending = false

def Ends (r : ExecutionResult) : Prop := r.success = true ∨ r.paymentPending = true

/-- The result tells what the reply told, perhaps with a note at the end of its error. -/
structure Shows (r reply : ExecutionResult) : Prop where
  success : r.success = reply.success
  pending : r.paymentPending = reply.paymentPending
  error : r.error = reply.error ∨ ∃ note, r.error = some (reply.error.getD "" ++ note)

/-- What the attempts of an execution lead to. The last one at the full amount is shown, unless a
later one ended the execution. -/
inductive Leads (amountSats : ℤ) : List Attempt → ExecutionResult → Prop where
  | refused (r : ExecutionResult) (error : String) : Unpaid r → r.error = some error →
      startsWith error RouteExecutor.nativeSendpayErrorPrefix = false → Leads amountSats [] r
  | ended (before : List Attempt) (a : Attempt) (r : ExecutionResult) :
      (∀ b ∈ before, Unpaid b.reply) → Ends a.reply → Shows r a.reply →
      Leads amountSats (before ++ [a]) r
  | failed (before : List Attempt) (v : Attempt) (rungs : List Attempt) (r : ExecutionResult) :
      (∀ b ∈ before ++ v :: rungs, Unpaid b.reply) → v.request.amountSats = amountSats →
      (∀ b ∈ rungs, b.request.amountSats ≠ amountSats) → Shows r v.reply →
      Leads amountSats (before ++ v :: rungs) r

theorem unpaid_or_ends (r : ExecutionResult) : Unpaid r ∨ Ends r := by
  unfold Unpaid Ends
  cases r.success
  · cases r.paymentPending
    · exact .inl ⟨rfl, rfl⟩
    · exact .inr (.inr rfl)
  · exact .inr (.inl rfl)

theorem Unpaid.not_ends {r : ExecutionResult} (h : Unpaid r) : ¬ Ends r := by
  rintro (hs | hp)
  · rw [h.1] at hs
    cases hs
  · rw [h.2] at hp
    cases hp

theorem Shows.refl (r : ExecutionResult) : Shows r r := ⟨rfl, rfl, .inl rfl⟩

theorem Shows.trans {p q r : ExecutionResult} (h : Shows p q) (k : Shows q r) : Shows p r := by
  refine ⟨h.success.trans k.success, h.pending.trans k.pending, ?_⟩
  rcases h.error with he | ⟨note, he⟩
  · rw [he]
    exact k.error
  · rcases k.error with ke | ⟨first, ke⟩
    · exact .inr ⟨note, by rw [he, ke]⟩
    · exact .inr ⟨first ++ note, by rw [he, ke, Option.getD_some, String.append_assoc]⟩

theorem Shows.unpaid {r reply : ExecutionResult} (h : Shows r reply) : Unpaid r ↔ Unpaid reply := by
  unfold Unpaid
  rw [h.success, h.pending]

section Seams

variable [UnicodeCase] [SerdeJson] (w : Wiring ν)

theorem quiet_onNode {f : ν → α × ν} :
    Quiet attempts (Native w.mode) (ask (onNode f) : Engine (Site ν) α) := by
  intro s
  rw [wp_ofRel]
  exact ⟨[], (List.append_nil _).symm, by simp, rfl⟩

theorem quiet_askLogged {f : ν → α × ν} (call : α → EngineCall) :
    Quiet attempts (Native w.mode) (askLogged (onNode f) call : Engine (Site ν) α) := by
  intro s
  rw [wp_ofRel]
  exact ⟨[], (List.append_nil _).symm, by simp, rfl⟩

theorem quietSeams : QuietSeams attempts (Native w.mode) w.deps := by
  constructor
  · intro getPolicy hpolicy peerId
    obtain ⟨policy, -, rfl⟩ := Option.map_eq_some_iff.mp hpolicy
    exact quiet_onNode w
  · exact quiet_onNode w
  · exact quiet_onNode w
  · exact fun now => quiet_onNode w
  · exact fun row _ => quiet_askLogged w _
  · exact fun req => quiet_askLogged w _
  · intro call s
    rw [wp_ofRel]
    exact ⟨[], (List.append_nil _).symm, by simp, rfl⟩
  · exact fun s t h => by rw [attempts, attempts, h]

theorem quiet_routePairFresh (pair : PairCandidate) (exclude : List String) :
    Quiet attempts (Native w.mode) (routePairFresh w.deps pair exclude) := by
  refine Quiet.bind (quiet_onNode w) fun available => Quiet.ite (fun _ => ?_) fun _ => Quiet.pure _
  refine (quietSeams w).ensureOurId.bind fun ourId => ?_
  exact Quiet.bind (quiet_onNode w) fun priced => Quiet.pure _

theorem adds_executeRequest (pair : PairCandidate) :
    Adds attempts (Native w.mode) (executeRequest w.deps pair) (Returning fun r new =>
      ∃ a, new = [a] ∧ a.reply = r ∧ a.request.amountSats = pair.amountSats) := by
  have hreq : Adds attempts (Native w.mode) (executionRequest w.deps pair)
      (Returning fun req new => new = [] ∧ req.amountSats = pair.amountSats) := by
    refine Adds.afterQuiet (quietSeams w).ensureOurId fun ourId => ?_
    exact Adds.afterQuiet (quietSeams w).now fun now => Adds.pure ⟨rfl, rfl⟩
  refine hreq.bindReturning fun req new hnew => ?_
  obtain ⟨rfl, hamount⟩ := hnew
  intro s
  rw [wp_ofRel]
  have hrun := execute_labelled w.rpc w.mode req s.world.node
  refine ⟨_, rfl, ?_, _, rfl, rfl, hamount⟩
  rw [List.forall_mem_singleton]
  refine ⟨hrun.talked, fun hreturned => hrun.label _ ?_⟩
  simp only [Option.isNone_eq_false_iff] at hreturned
  exact ok_of_isSome hreturned

end Seams

section Retries

inductive Retried (amountSats : ℤ) (first r : ExecutionResult) : List Attempt → Prop where
  | same : Shows r first → Retried amountSats first r []
  | again (a : Attempt) : Unpaid first → a.request.amountSats = amountSats → Shows r a.reply →
      Retried amountSats first r [a]

theorem annotateRetry_shows {first r : ExecutionResult} {note : String} {data : JsonMap}
    (h : annotateRetry first note data = some r) : Shows r first := by
  obtain ⟨attempts, -, h⟩ := Option.bind_eq_some_iff.mp h
  obtain rfl := Option.some.inj h
  exact ⟨rfl, rfl, .inr ⟨note, rfl⟩⟩

theorem mergeRetry_shows {first retry r : ExecutionResult} {exclusions : List String}
    {routeCostSats : ℤ} (h : mergeRetry first retry exclusions routeCostSats = some r) :
    Shows r retry := by
  obtain ⟨attempts, -, h⟩ := Option.bind_eq_some_iff.mp h
  obtain rfl := Option.some.inj h
  exact ⟨rfl, rfl, .inl rfl⟩

/-- The attempts of a rung: at most one, at the rung's amount. -/
def RungLeads (amountSats : ℤ) : LadderStep → List Attempt → Prop
  | .unavailable, new => new = []
  | .failed _ _ _, new => ∀ b ∈ new, Unpaid b.reply ∧ b.request.amountSats = amountSats
  | .finished r _, new => ∃ a, new = [a] ∧ Ends a.reply ∧ Shows r a.reply

theorem judgeRung_leads (prior : ExecutionResult) (a : Attempt)
    (originalAmount amountSats routeCostSats : ℤ) (partialAttempts : List Json)
    (totalAttempts : ℤ) (pair : PairCandidate) (hamount : a.request.amountSats = amountSats) :
    RungLeads amountSats (judgeRung prior a.reply originalAmount amountSats routeCostSats
      partialAttempts totalAttempts pair) [a] := by
  unfold judgeRung
  by_cases hsuccess : a.reply.success = true
  · rw [if_pos hsuccess]
    exact ⟨a, rfl, .inl hsuccess, rfl, rfl, .inl rfl⟩
  rw [if_neg hsuccess]
  by_cases hpending : a.reply.paymentPending = true
  · rw [if_pos hpending]
    exact ⟨a, rfl, .inr hpending, rfl, rfl, .inl rfl⟩
  rw [if_neg hpending]
  refine List.forall_mem_singleton.mpr ⟨⟨?_, ?_⟩, hamount⟩
  · simpa using hsuccess
  · simpa using hpending

/-- The attempts of the ladder: failed rungs, and perhaps one that finished it. -/
def LadderLeads (amounts : List ℤ) : LadderOutcome → List Attempt → Prop
  | .exhausted _ _, new => ∀ b ∈ new, Unpaid b.reply ∧ b.request.amountSats ∈ amounts
  | .finished r _, new => ∃ before a, new = before ++ [a] ∧ (∀ b ∈ before, Unpaid b.reply) ∧
    Ends a.reply ∧ Shows r a.reply

theorem LadderLeads.cons {amountSats : ℤ} {amounts : List ℤ} {out : LadderOutcome}
    {rung rest : List Attempt} (hrest : LadderLeads amounts out rest)
    (hrung : ∀ b ∈ rung, Unpaid b.reply ∧ b.request.amountSats = amountSats) :
    LadderLeads (amountSats :: amounts) out (rung ++ rest) := by
  cases out with
  | exhausted attempts total =>
    intro b hb
    rcases List.mem_append.mp hb with hb | hb
    · obtain ⟨hunpaid, rfl⟩ := hrung b hb
      exact ⟨hunpaid, List.mem_cons_self⟩
    · exact ⟨(hrest b hb).1, List.mem_cons_of_mem _ (hrest b hb).2⟩
  | finished r p =>
    obtain ⟨before, a, rfl, hbefore, hends, hshows⟩ := hrest
    refine ⟨rung ++ before, a, (List.append_assoc _ _ _).symm, fun b hb => ?_, hends, hshows⟩
    rcases List.mem_append.mp hb with hb | hb
    · exact (hrung b hb).1
    · exact hbefore b hb

inductive Laddered (amountSats : ℤ) (prior r : ExecutionResult) : List Attempt → Prop where
  | skipped : Shows r prior → Laddered amountSats prior r []
  | exhausted (rungs : List Attempt) : Unpaid prior → Shows r prior →
      (∀ b ∈ rungs, Unpaid b.reply ∧ b.request.amountSats ≠ amountSats) →
      Laddered amountSats prior r rungs
  | finished (before : List Attempt) (a : Attempt) : Unpaid prior →
      (∀ b ∈ before, Unpaid b.reply) → Ends a.reply → Shows r a.reply →
      Laddered amountSats prior r (before ++ [a])

theorem exhaustedResult_shows (prior : ExecutionResult) (originalAmount : ℤ)
    (partialAttempts : List Json) (totalAttempts : ℤ) :
    Shows (exhaustedResult prior originalAmount partialAttempts totalAttempts) prior := by
  refine ⟨rfl, rfl, ?_⟩
  cases hlast : partialAttempts.getLast? with
  | none =>
    refine .inl ?_
    simp [exhaustedResult, hlast]
  | some last =>
    refine .inr ⟨"; partial_retry_failed: " ++ ((last.get "status" >>= Json.asStr).getD ""), ?_⟩
    simp only [exhaustedResult, hlast]
    rw [← String.append_assoc]
    rfl

theorem leads_of_retries {amountSats : ℤ} {first : Attempt} {second r : ExecutionResult}
    {retry rungs : List Attempt} (hfirst : first.request.amountSats = amountSats)
    (hretry : Retried amountSats first.reply second retry)
    (hladder : Laddered amountSats second r rungs) :
    Leads amountSats (first :: (retry ++ rungs)) r := by
  -- The attempt that the second result shows, and the failed ones before it.
  obtain ⟨before, v, hsplit, hbefore, hv, hshows⟩ : ∃ before v, first :: retry = before ++ [v] ∧
      (∀ b ∈ before, Unpaid b.reply) ∧ v.request.amountSats = amountSats ∧
        Shows second v.reply := by
    cases hretry with
    | same hsame => exact ⟨[], first, rfl, by simp, hfirst, hsame⟩
    | again a hunpaid ha hshows =>
      exact ⟨[first], a, rfl, List.forall_mem_singleton.mpr hunpaid, ha, hshows⟩
  have hall : first :: (retry ++ rungs) = before ++ v :: rungs := by
    rw [← List.cons_append, hsplit, List.append_assoc, List.singleton_append]
  have hgoes : Unpaid second → ∀ rest : List Attempt, (∀ b ∈ rest, Unpaid b.reply) →
      ∀ b ∈ before ++ v :: rest, Unpaid b.reply := by
    intro hunpaid rest hrest b hb
    rcases List.mem_append.mp hb with hb | hb
    · exact hbefore b hb
    · rcases List.mem_cons.mp hb with rfl | hb
      · exact hshows.unpaid.mp hunpaid
      · exact hrest b hb
  rw [hall]
  cases hladder with
  | skipped hsame =>
    rcases unpaid_or_ends v.reply with hunpaid | hends
    · refine .failed before v [] r (hgoes (hshows.unpaid.mpr hunpaid) [] ?_) hv ?_
        (hsame.trans hshows)
      · simp
      · simp
    · exact .ended before v r hbefore hends (hsame.trans hshows)
  | exhausted rungs hunpaid hsame hrungs =>
    exact .failed before v rungs r (hgoes hunpaid rungs fun b hb => (hrungs b hb).1) hv
      (fun b hb => (hrungs b hb).2) (hsame.trans hshows)
  | finished failed a hunpaid hfailed hends hsame =>
    rw [← List.cons_append, ← List.append_assoc]
    exact .ended _ a r (hgoes hunpaid failed hfailed) hends hsame

end Retries

section Attempts

variable [UnicodeCase] [SerdeJson] (w : Wiring ν)

theorem adds_retryWithExclusions (pair : PairCandidate) (first : ExecutionResult) :
    Adds attempts (Native w.mode) (retryWithExclusions w.deps pair first)
      (Returning fun out new => out.2.amountSats = pair.amountSats ∧
        Retried pair.amountSats first out.1 new) := by
  have hskip : Retried pair.amountSats first first [] := .same (.refl first)
  refine Adds.ite (fun _ => Adds.pure ⟨rfl, hskip⟩) fun hfailed => ?_
  have hunpaid : Unpaid first := by simpa [Unpaid] using hfailed
  refine Adds.ite (fun _ => Adds.pure ⟨rfl, hskip⟩) fun _ => ?_
  refine Adds.afterQuiet (quiet_routePairFresh w pair _) fun priced => ?_
  match priced with
  | none => exact Adds.pure ⟨rfl, hskip⟩
  | some (.error exc) =>
    exact Adds.after_checked fun r hr => Adds.pure ⟨rfl, .same (annotateRetry_shows hr)⟩
  | some (.ok route) =>
    refine Adds.ite (fun _ => ?_) fun _ => Adds.after_checked fun budget _ => ?_
    · exact Adds.after_checked fun r hr => Adds.pure ⟨rfl, .same (annotateRetry_shows hr)⟩
    refine Adds.ite (fun _ => ?_) fun _ => ?_
    · exact Adds.after_checked fun r hr => Adds.pure ⟨rfl, .same (annotateRetry_shows hr)⟩
    refine (adds_executeRequest w _).bindReturning fun retry new hnew => ?_
    obtain ⟨a, rfl, rfl, hamount⟩ := hnew
    exact Adds.after_checked fun r hr =>
      Adds.pure ⟨rfl, .again a hunpaid hamount (mergeRetry_shows hr)⟩

theorem adds_ladderRung (prior : ExecutionResult) (originalAmount originalBudget amountSats : ℤ)
    (partialAttempts : List Json) (totalAttempts : ℤ) (pair : PairCandidate) :
    Adds attempts (Native w.mode) (ladderRung w.deps prior originalAmount originalBudget
      amountSats partialAttempts totalAttempts pair) (Returning (RungLeads amountSats)) := by
  have hnone : ∀ b ∈ ([] : List Attempt), Unpaid b.reply ∧ b.request.amountSats = amountSats := by
    simp
  refine Adds.afterQuiet (quiet_routePairFresh w _ _) fun priced => ?_
  match priced with
  | none => exact Adds.pure rfl
  | some (.error exc) => exact Adds.pure hnone
  | some (.ok route) =>
    refine Adds.ite (fun _ => Adds.pure hnone) fun _ => Adds.after_checked fun budget _ => ?_
    refine Adds.ite (fun _ => Adds.pure hnone) fun _ => ?_
    refine (adds_executeRequest w _).bindReturning fun retry new hnew => ?_
    obtain ⟨a, rfl, rfl, hamount⟩ := hnew
    refine Adds.after_checked fun total _ => Adds.pure ?_
    exact judgeRung_leads prior a _ _ _ _ _ _ hamount

theorem adds_ladder (prior : ExecutionResult) (originalAmount originalBudget : ℤ)
    (amounts : List ℤ) (partialAttempts : List Json) (totalAttempts : ℤ) (pair : PairCandidate) :
    Adds attempts (Native w.mode) (ladder w.deps prior originalAmount originalBudget amounts
      partialAttempts totalAttempts pair) (Returning (LadderLeads amounts)) := by
  have hnone : ∀ amounts : List ℤ, ∀ b ∈ ([] : List Attempt),
      Unpaid b.reply ∧ b.request.amountSats ∈ amounts := by
    simp
  induction amounts generalizing partialAttempts totalAttempts pair with
  | nil => exact Adds.pure (hnone [])
  | cons amountSats amounts ih =>
    refine (adds_ladderRung w prior _ _ amountSats _ _ pair).bindReturning fun step new hstep => ?_
    cases step with
    | unavailable =>
      obtain rfl := hstep
      exact Adds.pure (hnone _)
    | finished r p =>
      obtain ⟨a, rfl, hends, hshows⟩ := hstep
      exact Adds.pure ⟨[], a, rfl, by simp, hends, hshows⟩
    | failed p attempt total =>
      refine (ih (partialAttempts ++ [attempt]) total p).mono fun r rest hrest => ?_
      cases r with
      | ok out => exact LadderLeads.cons hrest hstep
      | err e => trivial
      | panic => trivial

theorem adds_retryWithPartialAmounts (pair : PairCandidate) (prior : ExecutionResult) :
    Adds attempts (Native w.mode) (retryWithPartialAmounts w.deps pair prior)
      (Returning fun out new => Laddered pair.amountSats prior out.1 new) := by
  have hskip : Laddered pair.amountSats prior prior [] := .skipped (.refl prior)
  refine Adds.ite (fun _ => Adds.pure hskip) fun hpending => ?_
  refine Adds.ite (fun _ => Adds.pure hskip) fun hallows => ?_
  have hunpaid : Unpaid prior := by
    refine ⟨?_, by simpa using hpending⟩
    rw [Bool.not_eq_true, Bool.not_eq_false'] at hallows
    by_contra hsuccess
    rw [failureAllowsPartial, if_pos (.inl (by simpa using hsuccess))] at hallows
    cases hallows
  refine (adds_ladder w prior _ _ _ _ _ _).bindReturning fun out new hout => ?_
  cases out with
  | exhausted attempts total =>
    refine Adds.pure (?_ : Laddered pair.amountSats prior _ (new ++ []))
    rw [List.append_nil]
    refine .exhausted new hunpaid (exhaustedResult_shows ..) fun b hb => ⟨(hout b hb).1, ?_⟩
    have hless := (FeeEnvelope.partial_amount_bounds (hout b hb).2).2
    omega
  | finished r p =>
    obtain ⟨before, a, rfl, hbefore, hends, hshows⟩ := hout
    refine Adds.pure (?_ : Laddered pair.amountSats prior r (before ++ [a] ++ []))
    rw [List.append_nil]
    exact .finished before a hunpaid hbefore hends hshows

theorem adds_payAndClose (pair : PairCandidate) (reservationId : String)
    (reserved accountCosts : Bool) (rebalanceId : Option ℤ) :
    Adds attempts (Native w.mode)
      (payAndClose w.deps pair reservationId reserved accountCosts rebalanceId)
      (Returning fun r new => Leads pair.amountSats new r) := by
  refine (adds_executeRequest w pair).bindReturning fun first new hnew => ?_
  obtain ⟨a, rfl, rfl, hfirst⟩ := hnew
  refine (adds_retryWithExclusions w pair a.reply).bindReturning fun out retry hretry => ?_
  obtain ⟨hamount, hretry⟩ := hretry
  refine (adds_retryWithPartialAmounts w out.2 out.1).bindReturning fun last rungs hladder => ?_
  rw [hamount] at hladder
  have hleads : Leads pair.amountSats (a :: (retry ++ (rungs ++ []))) last.1 := by
    rw [List.append_nil]
    exact leads_of_retries hfirst hretry hladder
  refine Adds.afterQuiet ((quietSeams w).recordRebalanceResult _ _ _ _) fun _ => ?_
  refine Adds.afterQuiet ((quietSeams w).finishExecutionBudget _ _ _) fun _ => ?_
  refine Adds.ite (fun _ => ?_) fun _ => Adds.pure hleads
  exact Adds.afterQuiet (quietSeams w).pushSegmentObservationSnapshot fun _ => Adds.pure hleads

end Attempts

section Refusals

theorem not_labelled {error pre : String} (h : startsWith error pre = true)
    (hpre : pre = "policy_blocked: " ∨ pre = localBudgetBlock ∨ pre = routePricingFailedPrefix) :
    startsWith error RouteExecutor.nativeSendpayErrorPrefix = false := by
  apply not_startsWith h
  · rcases hpre with rfl | rfl | rfl <;> decide
  · rcases hpre with rfl | rfl | rfl <;> decide

theorem notReserved_leads {amountSats : ℤ} {r : ExecutionResult} (h : NotReserved r) :
    Leads amountSats [] r := by
  have hblock : ∀ error, r.error = some error → Unpaid r →
      startsWith error localBudgetBlock = true → Leads amountSats [] r :=
    fun error herror hr htext => .refused r error hr herror (not_labelled htext (.inr (.inl rfl)))
  cases h with
  | zeroBudget amountSats => exact .refused _ _ ⟨rfl, rfl⟩ rfl (by decide)
  | blocked effectiveBudget amountSats block =>
    cases block with
    | refused remaining =>
      refine hblock _ rfl ⟨rfl, rfl⟩ ?_
      apply startsWith_extend
      apply startsWith_extend
      apply startsWith_extend
      exact startsWith_assoc localBudgetBlock _ _
    | unavailable msg =>
      refine hblock _ rfl ⟨rfl, rfl⟩ ?_
      exact startsWith_assoc localBudgetBlock _ _

end Refusals

section Candidate

variable [UnicodeCase] [SerdeJson] (w : Wiring ν)

theorem adds_reserveAndPay (pair : PairCandidate) (reservationId : String)
    (reserve accountCosts : Bool) (rebalanceId : Option ℤ) :
    Adds attempts (Native w.mode)
      (reserveAndPay w.deps pair reservationId reserve accountCosts rebalanceId)
      (Returning fun r new => Leads pair.amountSats new r) := by
  refine Adds.ite (fun _ => ?_) fun _ => adds_payAndClose w _ _ _ _ _
  refine ((quietSeams w).reserveExecutionBudget pair reservationId).bindReturning
    fun out new hnew => ?_
  obtain ⟨reserved, block⟩ := out
  obtain ⟨rfl, hblock⟩ := hnew
  cases block with
  | none => exact adds_payAndClose w _ _ _ _ _
  | some r =>
    refine Adds.afterQuiet ((quietSeams w).recordRebalanceResult _ _ _ _) fun _ => Adds.pure ?_
    exact notReserved_leads (hblock r rfl)

theorem adds_executePair (pair : PairCandidate) (reserve accountCosts : Bool)
    (rebalanceId : Option ℤ) :
    Adds attempts (Native w.mode) (executePair w.deps pair reserve accountCosts rebalanceId)
      (Returning fun r new => Leads pair.amountSats new r) := by
  refine Adds.afterQuiet ((quietSeams w).pairPolicyAllowed pair) fun allowed => ?_
  obtain ⟨ok, reason⟩ := allowed
  refine Adds.ite (fun _ => Adds.pure ?_) fun _ => ?_
  · refine .refused _ _ ⟨rfl, rfl⟩ rfl (not_labelled ?_ (.inl rfl))
    exact startsWith_append _ _
  refine Adds.afterQuiet ((quietSeams w).historyId pair rebalanceId) fun rowId => ?_
  refine Adds.afterQuiet ((quietSeams w).reservationIdOf pair rowId) fun reservationId => ?_
  refine Adds.afterQuiet ((quietSeams w).registerInflight _) fun _ => ?_
  refine (adds_reserveAndPay w pair reservationId reserve accountCosts rowId).bindReturning
    fun r new hleads => ?_
  have hend : Leads pair.amountSats (new ++ []) r := by rwa [List.append_nil]
  exact Adds.afterQuiet ((quietSeams w).unregisterInflight _) fun _ => Adds.pure hend

theorem adds_executeCandidate (candidate : RebalanceCandidate) (rebalanceId : ℤ)
    (kw : EngineKwargs) :
    Adds attempts (Native w.mode)
      (RebalanceEngine.executeCandidate w.deps candidate rebalanceId kw)
      (Returning fun r new => Leads candidate.amountSats new r) := by
  have hrefused : ∀ error amountSats,
      startsWith error RouteExecutor.nativeSendpayErrorPrefix = false →
      Leads candidate.amountSats [] (failedResult error amountSats) :=
    fun error amountSats herror => .refused _ error ⟨rfl, rfl⟩ rfl herror
  have hunrouted : ∀ rest, startsWith (routePricingFailedPrefix ++ rest)
      RouteExecutor.nativeSendpayErrorPrefix = false :=
    fun rest => not_labelled (startsWith_append _ rest) (.inr (.inr rfl))
  refine Adds.afterQuiet (quiet_onNode w) fun free => ?_
  refine Adds.ite (fun _ => Adds.pure (hrefused _ _ (by decide))) fun _ => ?_
  refine Adds.afterQuiet (Quiet.read _) fun inflight => ?_
  refine Adds.ite (fun _ => Adds.pure (hrefused _ _ (by decide))) fun _ => ?_
  refine Adds.ite (fun _ => Adds.pure (hrefused _ _ (by decide))) fun _ => ?_
  refine Adds.ite (fun _ => Adds.pure (hrefused _ _ (by decide))) fun _ => ?_
  refine Adds.ite (fun _ => Adds.pure (hrefused _ _ (by decide))) fun _ => ?_
  refine Adds.afterQuiet (quiet_routePairFresh w _ _) fun priced => ?_
  match priced with
  | none => exact Adds.pure (hrefused _ _ (by decide))
  | some (.error exc) => exact Adds.pure (hrefused _ _ (hunrouted _))
  | some (.ok route) =>
    refine Adds.ite (fun _ => Adds.pure (hrefused _ _ ?_)) fun _ => adds_executePair w _ _ _ _
    rw [String.append_assoc]
    exact hunrouted _

end Candidate

end WiredEngine
