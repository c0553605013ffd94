import RevenueOps.RebalanceEngine

/-! The attempts of one execution: which requests they send to the executor, and which reply
their result carries. -/
namespace EngineAttempts

open FallibleState JsonValue RustNumber RustText RouteExecutor RebalanceEngine

variable {ω : Type}

section Silent

theorem silent_ensureOurId (deps : EngineDeps ω) : Silent (ensureOurId deps) := by
  refine silent_read.bind fun cached => Logs.ite (fun _ => ?_) fun _ => Silent.pure _
  refine silent_ask.bind fun reply => ?_
  cases reply with
  | error _ => exact Silent.pure _
  | ok id =>
    refine Silent.bind (silent_modify ?_) fun _ => Silent.pure _
    exact fun _ => rfl

theorem silent_routePairFresh (deps : EngineDeps ω) (pair : PairCandidate)
    (exclude : List String) : Silent (routePairFresh deps pair exclude) := by
  refine silent_ask.bind fun available => Logs.ite (fun _ => ?_) fun _ => Silent.pure _
  exact (silent_ensureOurId deps).bind fun _ => silent_ask.bind fun _ => Silent.pure _

theorem silent_checkPolicies (getPolicy : String → ω → Except String PeerPolicy × ω)
    (checks : List (String × String × List String)) : Silent (checkPolicies getPolicy checks) := by
  induction checks with
  | nil => exact Silent.pure _
  | cons check checks ih =>
    obtain ⟨peerId, side, forbidden⟩ := check
    refine Logs.ite (fun _ => ih) fun _ => silent_ask.bind fun reply => ?_
    cases reply with
    | error e => exact Silent.pure _
    | ok policy =>
      exact Logs.ite (fun _ => Silent.pure _) fun _ =>
        Logs.ite (fun _ => Silent.pure _) fun _ => ih

theorem silent_pairPolicyAllowed (deps : EngineDeps ω) (pair : PairCandidate) :
    Silent (pairPolicyAllowed deps pair) := by
  unfold pairPolicyAllowed
  cases deps.policy with
  | none => exact Silent.pure _
  | some getPolicy => exact silent_checkPolicies getPolicy _

end Silent

section Replies

structure SameOutcome (r q : ExecutionResult) : Prop where
  success : r.success = q.success
  pending : r.paymentPending = q.paymentPending
  hash : r.paymentHash = q.paymentHash

theorem SameOutcome.refl (r : ExecutionResult) : SameOutcome r r := ⟨rfl, rfl, rfl⟩

theorem SameOutcome.trans {r q p : ExecutionResult} (h : SameOutcome r q) (k : SameOutcome q p) :
    SameOutcome r p :=
  ⟨h.success.trans k.success, h.pending.trans k.pending, h.hash.trans k.hash⟩

def Held (r : ExecutionResult) : Prop :=
  r.paymentPending = true ∧ ∃ hash, r.paymentHash = some hash ∧ hash ≠ ""

theorem sweepableHash_eq_some {r : ExecutionResult} {hash : String} :
    sweepableHash r = some hash ↔ r.paymentHash = some hash ∧ hash ≠ "" := by
  simp [sweepableHash, Option.filter_eq_some_iff]

theorem held_iff {r : ExecutionResult} :
    Held r ↔ r.paymentPending = true ∧ (sweepableHash r).isSome = true := by
  unfold Held
  simp only [Option.isSome_iff_exists, sweepableHash_eq_some]

theorem SameOutcome.held {r q : ExecutionResult} (h : SameOutcome r q) : Held r ↔ Held q := by
  unfold Held
  rw [h.pending, h.hash]

def Tried (r : ExecutionResult) (c : EngineCall) : Prop :=
  ∃ req q, c = .execute req q ∧ (q.paymentPending = true → SameOutcome r q)

def Replied (r : ExecutionResult) (calls : List EngineCall) : Prop :=
  ∃ req q, .execute req q ∈ calls ∧ SameOutcome r q

structure Follows (first r : ExecutionResult) (calls : List EngineCall) : Prop where
  tried : ∀ c ∈ calls, Tried r c
  outcome : SameOutcome r first ∨ first.paymentPending = false ∧ Replied r calls

theorem Follows.same {first r : ExecutionResult} (h : SameOutcome r first) : Follows first r [] :=
  ⟨by simp, .inl h⟩

theorem Follows.keeps_pending {first r : ExecutionResult} {calls : List EngineCall}
    (h : Follows first r calls) (hp : first.paymentPending = true) : SameOutcome r first := by
  rcases h.outcome with hs | ⟨hn, -⟩
  · exact hs
  · rw [hp] at hn
    cases hn

theorem Follows.trans {first r q : ExecutionResult} {cs ds : List EngineCall}
    (h : Follows first r cs) (k : Follows r q ds) : Follows first q (cs ++ ds) := by
  refine ⟨fun c hc => ?_, ?_⟩
  · rcases List.mem_append.mp hc with hc | hc
    · obtain ⟨req, p, rfl, hs⟩ := h.tried c hc
      refine ⟨req, p, rfl, fun hp => ?_⟩
      have hr := hs hp
      exact (k.keeps_pending (hr.pending.trans hp)).trans hr
    · exact k.tried c hc
  · rcases k.outcome with hs | ⟨hn, req, p, hmem, hs⟩
    · rcases h.outcome with ht | ⟨hn, req, p, hmem, ht⟩
      · exact .inl (hs.trans ht)
      · exact .inr ⟨hn, req, p, List.mem_append_left _ hmem, hs.trans ht⟩
    · rcases h.outcome with ht | ⟨hf, -⟩
      · exact .inr ⟨ht.pending.symm.trans hn, req, p, List.mem_append_right _ hmem, hs⟩
      · exact .inr ⟨hf, req, p, List.mem_append_right _ hmem, hs⟩

/-- The attempts of an execution: its result is one of the replies, and the pending one if any. -/
structure Carried (r : ExecutionResult) (calls : List EngineCall) : Prop where
  tried : ∀ c ∈ calls, Tried r c
  replied : Replied r calls

theorem Follows.carried {req : ExecuteRequest} {first r : ExecutionResult}
    {calls : List EngineCall} (h : Follows first r calls) :
    Carried r (.execute req first :: calls) := by
  refine ⟨fun c hc => ?_, ?_⟩
  · rcases List.mem_cons.mp hc with rfl | hc
    · exact ⟨req, first, rfl, h.keeps_pending⟩
    · exact h.tried c hc
  · rcases h.outcome with hs | ⟨-, req', q, hmem, hs⟩
    · exact ⟨req, first, List.mem_cons_self, hs⟩
    · exact ⟨req', q, List.mem_cons_of_mem _ hmem, hs⟩

/-- The replies to the attempts hold the reservation exactly when the result does. -/
theorem Carried.held_iff {r : ExecutionResult} {attempts : List EngineCall} (h : Carried r attempts)
    {P : ExecutionResult → Prop} (hP : ∀ p q, SameOutcome p q → (P p ↔ P q)) :
    (Held r → P r) ↔ ∀ req q, .execute req q ∈ attempts → Held q → P q := by
  constructor
  · intro hr req q hmem hq
    obtain ⟨req', q', heq, hs⟩ := h.tried _ hmem
    obtain ⟨rfl, rfl⟩ := EngineCall.execute.inj heq
    have hsame := hs hq.1
    exact (hP _ _ hsame).mp (hr (hsame.held.mpr hq))
  · intro hall hr
    obtain ⟨req, q, hmem, hs⟩ := h.replied
    exact (hP _ _ hs).mpr (hall req q hmem (hs.held.mp hr))

end Replies

section Attempts

/-- A fee limit that an attempt of the pair can carry: its own, or one of a ladder rung. -/
def Envelope (config : EngineConfig) (pair : PairCandidate) (fee : ℤ) : Prop :=
  fee = pairMaxFeeSats pair ∨
    ∃ amountSats ∈ nativePartialAmounts pair.amountSats, ∃ probabilityPpm,
      rungCeiling config pair.amountSats pair.pairBudgetSats amountSats probabilityPpm = some fee

/-- A budget is asked for only for a positive envelope under a positive limit. -/
def Grantable (config : EngineConfig) (pair : PairCandidate) : Prop :=
  0 < config.dailyBudgetSats ∧ 0 < pairMaxFeeSats pair ∧
    InI64 (max config.totalCostBudgetWindowHours 1 * 3600)

/-- The bounds of an execution: its requests keep to the envelope, and it reserves its own fee. -/
def planBounds (config : EngineConfig) (pair : PairCandidate) : Bounds :=
  ⟨Envelope config pair, fun req => Grantable config pair ∧ req.amountSats = pairMaxFeeSats pair⟩

structure SamePlan (p pair : PairCandidate) : Prop where
  fee : pairMaxFeeSats p = pairMaxFeeSats pair
  amount : p.amountSats = pair.amountSats
  budget : p.pairBudgetSats = pair.pairBudgetSats

theorem SamePlan.bounds {p pair : PairCandidate} (h : SamePlan p pair) (config : EngineConfig) :
    planBounds config p = planBounds config pair := by
  unfold planBounds Envelope Grantable
  rw [h.fee, h.amount, h.budget]

theorem logs_executionRequest {b : Bounds} (deps : EngineDeps ω) (pair : PairCandidate) :
    Logs b (executionRequest deps pair) fun req calls =>
      calls = [] ∧ req.maxFeeSats = pairMaxFeeSats pair :=
  Logs.after_silent (silent_ensureOurId deps) fun _ =>
    Logs.after_silent silent_ask fun _ => Logs.pure ⟨rfl, rfl⟩

theorem logs_executeRequest {b : Bounds} (deps : EngineDeps ω) (pair : PairCandidate)
    (hb : b.fee (pairMaxFeeSats pair)) :
    Logs b (executeRequest deps pair) fun r calls => ∃ req, calls = [.execute req r] := by
  refine Logs.bind (logs_executionRequest deps pair) ?_
  rintro req calls ⟨rfl, hreq⟩
  have hallows : ∀ r, b.Allows (.execute req r) := by
    intro r
    change b.fee req.maxFeeSats
    rwa [hreq]
  refine (logs_askLogged hallows).mono ?_
  rintro r calls rfl
  exact ⟨req, rfl⟩

theorem annotateRetry_outcome {first r : ExecutionResult} {note : String} {data : JsonMap}
    (h : annotateRetry first note data = some r) : SameOutcome r first := by
  obtain ⟨attempts, -, h⟩ := Option.bind_eq_some_iff.mp h
  obtain rfl := Option.some.inj h
  exact ⟨rfl, rfl, rfl⟩

theorem mergeRetry_outcome {first retry r : ExecutionResult} {exclusions : List String}
    {routeCostSats : ℤ} (h : mergeRetry first retry exclusions routeCostSats = some r) :
    SameOutcome r retry := by
  obtain ⟨attempts, -, h⟩ := Option.bind_eq_some_iff.mp h
  obtain rfl := Option.some.inj h
  exact ⟨rfl, rfl, rfl⟩

/-- One more request, on a payment that is not pending, whose reply is the result. -/
theorem Follows.executed {first r q : ExecutionResult} {req : ExecuteRequest}
    (hf : first.paymentPending = false) (hs : SameOutcome r q) :
    Follows first r [.execute req q] := by
  refine ⟨fun c hc => ?_, .inr ⟨hf, req, q, List.mem_singleton_self _, hs⟩⟩
  obtain rfl := List.mem_singleton.mp hc
  exact ⟨req, q, rfl, fun _ => hs⟩

theorem logs_retryWithExclusions (deps : EngineDeps ω) (pair : PairCandidate)
    (first : ExecutionResult) :
    Logs (planBounds deps.config pair) (retryWithExclusions deps pair first) fun out calls =>
      SamePlan out.2 pair ∧ Follows first out.1 calls := by
  have hunchanged : SamePlan pair pair := ⟨rfl, rfl, rfl⟩
  have hsame : Follows first first [] := Follows.same (SameOutcome.refl first)
  refine Logs.ite (fun _ => Logs.pure ⟨hunchanged, hsame⟩) fun hopen => ?_
  refine Logs.ite (fun _ => Logs.pure ⟨hunchanged, hsame⟩) fun _ => ?_
  refine Logs.after_silent (silent_routePairFresh deps pair _) fun priced => ?_
  match priced with
  | none => exact Logs.pure ⟨hunchanged, hsame⟩
  | some (.error exc) =>
    exact Logs.after_checked fun r hr =>
      Logs.pure ⟨hunchanged, Follows.same (annotateRetry_outcome hr)⟩
  | some (.ok route) =>
    refine Logs.ite (fun _ => ?_) fun _ => Logs.after_checked fun budget _ => ?_
    · exact Logs.after_checked fun r hr =>
        Logs.pure ⟨hunchanged, Follows.same (annotateRetry_outcome hr)⟩
    refine Logs.ite (fun _ => ?_) fun _ => ?_
    · exact Logs.after_checked fun r hr =>
        Logs.pure ⟨hunchanged, Follows.same (annotateRetry_outcome hr)⟩
    refine Logs.bind (logs_executeRequest deps _ (.inl rfl)) ?_
    rintro retry calls ⟨req, rfl⟩
    refine Logs.after_checked fun r hr => Logs.pure ⟨⟨rfl, rfl, rfl⟩, ?_⟩
    have hf : first.paymentPending = false := by
      simp only [not_or, Bool.not_eq_true] at hopen
      exact hopen.2
    exact Follows.executed hf (mergeRetry_outcome hr)

def Rungs (calls : List EngineCall) : Prop :=
  ∀ c ∈ calls, ∃ req q, c = .execute req q ∧ q.paymentPending = false

theorem Rungs.tried {calls : List EngineCall} (h : Rungs calls) (r : ExecutionResult) :
    ∀ c ∈ calls, Tried r c := by
  intro c hc
  obtain ⟨req, q, rfl, hq⟩ := h c hc
  refine ⟨req, q, rfl, fun hp => ?_⟩
  rw [hq] at hp
  cases hp

def RungStep : LadderStep → List EngineCall → Prop
  | .unavailable, calls => calls = []
  | .failed _ _ _, calls => Rungs calls
  | .finished r _, calls => Carried r calls

def LadderEnd : LadderOutcome → List EngineCall → Prop
  | .exhausted _ _, calls => Rungs calls
  | .finished r _, calls => Carried r calls

theorem Carried.single {req : ExecuteRequest} {r q : ExecutionResult} (hs : SameOutcome r q) :
    Carried r [.execute req q] :=
  (Follows.same hs).carried

theorem Rungs.carried {r : ExecutionResult} {cs ds : List EngineCall}
    (h : Rungs cs) (k : Carried r ds) : Carried r (cs ++ ds) := by
  refine ⟨fun c hc => ?_, ?_⟩
  · rcases List.mem_append.mp hc with hc | hc
    · exact h.tried r c hc
    · exact k.tried c hc
  · obtain ⟨req, q, hmem, hs⟩ := k.replied
    exact ⟨req, q, List.mem_append_right _ hmem, hs⟩

theorem judgeRung_step (req : ExecuteRequest) (prior retry : ExecutionResult)
    (originalAmount amountSats routeCostSats : ℤ) (partialAttempts : List Json)
    (totalAttempts : ℤ) (pair : PairCandidate) :
    RungStep (judgeRung prior retry originalAmount amountSats routeCostSats partialAttempts
      totalAttempts pair) [.execute req retry] := by
  unfold judgeRung
  by_cases hsuccess : retry.success = true
  · rw [if_pos hsuccess]
    exact Carried.single ⟨rfl, rfl, rfl⟩
  · rw [if_neg hsuccess]
    by_cases hpending : retry.paymentPending = true
    · rw [if_pos hpending]
      exact Carried.single ⟨rfl, rfl, rfl⟩
    · rw [if_neg hpending]
      intro c hc
      obtain rfl := List.mem_singleton.mp hc
      exact ⟨req, retry, rfl, by simpa using hpending⟩

theorem logs_ladderRung {b : Bounds} (deps : EngineDeps ω) (prior : ExecutionResult)
    {originalAmount originalBudget amountSats : ℤ}
    (hfee : ∀ p c, rungCeiling deps.config originalAmount originalBudget amountSats p = some c →
      b.fee c)
    (partialAttempts : List Json) (totalAttempts : ℤ) (pair : PairCandidate) :
    Logs b (ladderRung deps prior originalAmount originalBudget amountSats partialAttempts
      totalAttempts pair) RungStep := by
  have hnone : Rungs [] := by simp [Rungs]
  refine Logs.after_silent (silent_routePairFresh deps _ _) fun priced => ?_
  match priced with
  | none => exact Logs.pure rfl
  | some (.error exc) => exact Logs.pure hnone
  | some (.ok route) =>
    refine Logs.ite (fun _ => Logs.pure hnone) fun _ => Logs.after_checked fun budget hb => ?_
    refine Logs.ite (fun _ => Logs.pure hnone) fun _ => ?_
    refine Logs.bind (logs_executeRequest deps _ (hfee route.probabilityPpm budget hb)) ?_
    rintro retry calls ⟨req, rfl⟩
    refine Logs.after_checked fun total _ => Logs.pure ?_
    exact judgeRung_step req ..

theorem logs_ladder {b : Bounds} (deps : EngineDeps ω) (prior : ExecutionResult)
    {originalAmount originalBudget : ℤ} {amounts : List ℤ}
    (hfee : ∀ a ∈ amounts, ∀ p c,
      rungCeiling deps.config originalAmount originalBudget a p = some c → b.fee c)
    (partialAttempts : List Json) (totalAttempts : ℤ) (pair : PairCandidate) :
    Logs b (ladder deps prior originalAmount originalBudget amounts partialAttempts totalAttempts
      pair) LadderEnd := by
  induction amounts generalizing partialAttempts totalAttempts pair with
  | nil => exact Logs.pure (by simp [LadderEnd, Rungs])
  | cons a amounts ih =>
    refine Logs.bind (logs_ladderRung deps prior (hfee a List.mem_cons_self) _ _ _) ?_
    intro step calls hstep
    match step with
    | .unavailable =>
      obtain rfl := hstep
      exact Logs.pure (by simp [LadderEnd, Rungs])
    | .finished r p =>
      exact Logs.pure (by rw [List.append_nil]; exact hstep)
    | .failed p attempt total =>
      refine (ih (fun d hd => hfee d (List.mem_cons_of_mem _ hd)) _ total p).mono ?_
      intro out more hout
      match out with
      | .exhausted _ _ =>
        intro c hc
        rcases List.mem_append.mp hc with hc | hc
        · exact hstep c hc
        · exact hout c hc
      | .finished r p => exact Rungs.carried hstep hout

theorem logs_retryWithPartialAmounts [UnicodeCase] (deps : EngineDeps ω) (pair : PairCandidate)
    (prior : ExecutionResult) :
    Logs (planBounds deps.config pair) (retryWithPartialAmounts deps pair prior) fun out calls =>
      Follows prior out.1 calls := by
  have hsame : Follows prior prior [] := Follows.same (SameOutcome.refl prior)
  refine Logs.ite (fun _ => Logs.pure hsame) fun hopen => ?_
  refine Logs.ite (fun _ => Logs.pure hsame) fun _ => ?_
  have hfee : ∀ a ∈ nativePartialAmounts pair.amountSats, ∀ p c,
      rungCeiling deps.config pair.amountSats pair.pairBudgetSats a p = some c →
        Envelope deps.config pair c := fun a ha p c hc => .inr ⟨a, ha, p, hc⟩
  refine Logs.bind (logs_ladder deps prior hfee _ _ _) ?_
  intro out calls hout
  match out with
  | .finished r p =>
    refine Logs.pure ?_
    rw [List.append_nil]
    exact ⟨hout.tried, .inr ⟨by simpa using hopen, hout.replied⟩⟩
  | .exhausted partialAttempts total =>
    refine Logs.pure ?_
    rw [List.append_nil]
    exact ⟨hout.tried _, .inl ⟨rfl, rfl, rfl⟩⟩

end Attempts

end EngineAttempts
