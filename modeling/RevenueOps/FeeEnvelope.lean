import RevenueOps.EngineTrail

/-! The fee envelope. One reservation covers the first attempt, the exclusion retry and every rung
of the partial-amount ladder; a rung computes its own fee ceiling, and the two must agree. -/
namespace FeeEnvelope

open FallibleState JsonValue RustNumber RustText RouteExecutor RebalanceEngine
open EngineAttempts EngineTrail
open BudgetRail (ReserveRequest)

section Amounts

theorem halvings_bounds {original minAmount : ℤ} {amounts : List ℤ}
    (h : ∀ a ∈ amounts, minAmount ≤ a ∧ a < original) (fuel : ℕ) (current : ℤ) :
    ∀ a ∈ halvings original minAmount fuel current amounts, minAmount ≤ a ∧ a < original := by
  induction fuel generalizing current amounts with
  | zero => exact h
  | succ fuel ih =>
    unfold halvings
    split
    · rename_i hcurrent
      have hnext : ∀ a ∈ (if current < original ∧ current ∉ amounts then amounts ++ [current]
          else amounts), minAmount ≤ a ∧ a < original := by
        intro a ha
        split at ha
        · rename_i hnew
          rcases List.mem_append.mp ha with ha | ha
          · exact h a ha
          · obtain rfl := List.mem_singleton.mp ha
            exact ⟨hcurrent.1, hnew.1⟩
        · exact h a ha
      dsimp only
      split
      · exact hnext
      · exact ih hnext _
    · exact h

theorem partial_amount_bounds {amountSats a : ℤ} (h : a ∈ nativePartialAmounts amountSats) :
    0 < a ∧ a < amountSats := by
  unfold nativePartialAmounts at h
  dsimp only at h
  split at h
  · simp at h
  split at h
  · simp at h
  rename_i hpos hmin
  generalize hfloor :
      min (amountSats - 1) (max 1000 (min 5000 (amountSats.tdiv 2))) = floor at h hmin
  have hhalvings := @halvings_bounds amountSats floor [] (by simp) 64 (amountSats.tdiv 2)
  have hmem := List.mem_of_mem_take h
  have hle : floor ≤ a ∧ a < amountSats := by
    split at hmem
    · rename_i hnew
      rcases List.mem_append.mp hmem with hmem | hmem
      · exact hhalvings a hmem
      · obtain rfl := List.mem_singleton.mp hmem
        exact ⟨le_rfl, hnew.1⟩
    · exact hhalvings a hmem
  omega

end Amounts

section Ceiling

/-- The ceiling of a rung outgrows the fee of the plan: its share of the budget, with the bonus of
its route, is above it, and the ppm cap at its amount does not bring it back. -/
def Outgrows (config : EngineConfig) (pair : PairCandidate) (amountSats probabilityPpm : ℤ) :
    Prop :=
  pairMaxFeeSats pair <
      probabilityAdjustedBudget (rungBudget pair.amountSats pair.pairBudgetSats amountSats)
        probabilityPpm config.capexProbabilityBudgetBonus ∧
    (config.pairFeeCapPpm ≤ 0 ∨
      InI64 (amountSats * config.pairFeeCapPpm) ∧
        InI64 (amountSats * config.pairFeeCapPpm + 999999) ∧
          pairMaxFeeSats pair < (amountSats * config.pairFeeCapPpm + 999999).tdiv 1000000)

theorem perAttemptCeiling_eq_some {budget amountSats capPpm c : ℤ} (ha : 0 < amountSats) :
    perAttemptCeiling budget amountSats capPpm = some c ↔
      (capPpm ≤ 0 ∧ c = max budget 0) ∨
        (0 < capPpm ∧ InI64 (amountSats * capPpm) ∧ InI64 (amountSats * capPpm + 999999) ∧
          c = min (max budget 0) ((amountSats * capPpm + 999999).tdiv 1000000)) := by
  unfold perAttemptCeiling mulI64 addI64 i64?
  by_cases hcap : capPpm ≤ 0
  · simp [hcap, eq_comm]
  · have hon : ¬(capPpm ≤ 0 ∨ amountSats ≤ 0) := by omega
    rw [if_neg hon]
    by_cases hproduct : InI64 (amountSats * capPpm)
    · by_cases hrounded : InI64 (amountSats * capPpm + 999999)
      · simp [hproduct, hrounded, hcap, eq_comm]
        omega
      · simp [hproduct, hrounded, hcap]
    · simp [hproduct, hcap]

theorem outgrows_iff {config : EngineConfig} {pair : PairCandidate} {amountSats p : ℤ}
    (hfee : 0 < pairMaxFeeSats pair) (ha : 0 < amountSats) :
    Outgrows config pair amountSats p ↔
      ∃ c, rungCeiling config pair.amountSats pair.pairBudgetSats amountSats p = some c ∧
        pairMaxFeeSats pair < c := by
  unfold Outgrows rungCeiling
  generalize probabilityAdjustedBudget _ p _ = budget
  simp only [perAttemptCeiling_eq_some ha]
  constructor
  · rintro ⟨hbudget, hcap | ⟨hproduct, hrounded, hlt⟩⟩
    · exact ⟨_, .inl ⟨hcap, rfl⟩, by omega⟩
    · by_cases hcap : config.pairFeeCapPpm ≤ 0
      · exact ⟨_, .inl ⟨hcap, rfl⟩, by omega⟩
      · exact ⟨_, .inr ⟨by omega, hproduct, hrounded, rfl⟩, by omega⟩
  · rintro ⟨c, ⟨hcap, rfl⟩ | ⟨hcap, hproduct, hrounded, rfl⟩, hlt⟩
    · exact ⟨by omega, .inl hcap⟩
    · exact ⟨by omega, .inr ⟨hproduct, hrounded, by omega⟩⟩

theorem rungBudget_le {originalAmount originalBudget amountSats : ℤ}
    (hlt : amountSats < originalAmount) (hpos : 0 < amountSats) (hbudget : InI64 originalBudget) :
    rungBudget originalAmount originalBudget amountSats ≤ originalBudget := by
  unfold rungBudget
  by_cases hscale : 0 < originalAmount ∧ 0 < originalBudget
  · rw [if_pos hscale]
    have hproduct : 0 ≤ originalBudget * amountSats := Int.mul_nonneg (by omega) (by omega)
    have hshare : originalBudget * amountSats ≤ originalBudget * (originalAmount - 1) := by
      apply Int.mul_le_mul_of_nonneg_left
      · omega
      · omega
    have hceil : (originalBudget * amountSats + originalAmount - 1).tdiv originalAmount <
        originalBudget + 1 := by
      rw [Int.tdiv_eq_ediv_of_nonneg (by omega)]
      apply Int.ediv_lt_of_lt_mul
      · omega
      · linarith
    have hnonneg : 0 ≤ (originalBudget * amountSats + originalAmount - 1).tdiv originalAmount :=
      Int.tdiv_nonneg (by omega) (by omega)
    have hrange :
        InI64 ((originalBudget * amountSats + originalAmount - 1).tdiv originalAmount) := by
      unfold InI64 at *
      omega
    unfold scaledBudgetCeil
    dsimp only
    rw [if_pos hrange]
    omega
  · rw [if_neg hscale]

/-- The plan's fee is its whole budget, or the ceiling of that budget at the whole amount. -/
def FullPlan (config : EngineConfig) (pair : PairCandidate) : Prop :=
  pair.effectiveBudgetSats = none ∨
    pair.effectiveBudgetSats =
      perAttemptCeiling pair.pairBudgetSats pair.amountSats config.pairFeeCapPpm

theorem not_outgrows_of_no_bonus {config : EngineConfig} {pair : PairCandidate} {amountSats p : ℤ}
    (hbonus : config.capexProbabilityBudgetBonus ≤ 0.0) (hplan : FullPlan config pair)
    (hbudget : InI64 pair.pairBudgetSats) (hfee : 0 < pairMaxFeeSats pair)
    (ha : amountSats ∈ nativePartialAmounts pair.amountSats) :
    ¬Outgrows config pair amountSats p := by
  obtain ⟨hpos, hlt⟩ := partial_amount_bounds ha
  have hshare := rungBudget_le hlt hpos hbudget
  rintro ⟨hgrown, hcap⟩
  rw [probabilityAdjustedBudget, if_pos (.inl hbonus)] at hgrown
  cases heffective : pair.effectiveBudgetSats with
  | none =>
    have hwhole : pairMaxFeeSats pair = pair.pairBudgetSats := by simp [pairMaxFeeSats, heffective]
    omega
  | some c =>
    have hceiling : pairMaxFeeSats pair = c := by simp [pairMaxFeeSats, heffective]
    have hplan : perAttemptCeiling pair.pairBudgetSats pair.amountSats config.pairFeeCapPpm =
        some c := by
      rcases hplan with hnone | hsome
      · rw [hnone] at heffective
        cases heffective
      · exact hsome.symm.trans heffective
    rcases (perAttemptCeiling_eq_some (by omega)).mp hplan with ⟨-, hc⟩ | ⟨hon, -, -, hc⟩
    · omega
    · rcases hcap with hoff | ⟨-, -, hcap⟩
      · omega
      have hmul : amountSats * config.pairFeeCapPpm ≤ pair.amountSats * config.pairFeeCapPpm := by
        apply Int.mul_le_mul_of_nonneg_right
        · omega
        · omega
      have hproduct : 0 ≤ amountSats * config.pairFeeCapPpm := Int.mul_nonneg (by omega) (by omega)
      rw [Int.tdiv_eq_ediv_of_nonneg (by omega)] at hcap hc
      omega

end Ceiling

section Within

/-- Whatever the replies and the outcome, what an execution reserves is the fee of its plan, and
what it sends is that fee or the ceiling of a rung. -/
theorem log_within_plan [UnicodeCase] {ω : Type} (deps : EngineDeps ω) (pair : PairCandidate)
    (accountCosts : Bool) (rebalanceId : Option ℤ) (world : ω) (ourId : String) (nonce : ℤ)
    (inflight : List String) :
    ∀ c ∈ (executePair deps pair true accountCosts rebalanceId
      (.start world ourId nonce inflight)).2.log, (planBounds deps.config pair).Allows c := by
  obtain ⟨calls, hlog, hallows⟩ :=
    (logs_executePair deps pair true accountCosts rebalanceId).always
      (.start world ourId nonce inflight)
  rw [hlog, EngineState.start, List.nil_append]
  exact hallows

theorem within_of_not_outgrows [UnicodeCase] {ω : Type} {deps : EngineDeps ω} {pair : PairCandidate}
    {accountCosts : Bool} {rebalanceId : Option ℤ} {world : ω} {ourId : String} {nonce : ℤ}
    {inflight : List String} {log : List EngineCall} {req : ReserveRequest}
    (hlog : (executePair deps pair true accountCosts rebalanceId
      (.start world ourId nonce inflight)).2.log = log)
    (hfits : Grantable deps.config pair →
      ∀ a ∈ nativePartialAmounts pair.amountSats, ∀ p, ¬Outgrows deps.config pair a p)
    (hgrant : .reserveBudget req none ∈ log) {request : ExecuteRequest} {q : ExecutionResult}
    (hexecute : .execute request q ∈ log) : request.maxFeeSats ≤ req.amountSats := by
  have hwithin := log_within_plan deps pair accountCosts rebalanceId world ourId nonce inflight
  rw [hlog] at hwithin
  obtain ⟨hgrantable, hamount⟩ : Grantable deps.config pair ∧
      req.amountSats = pairMaxFeeSats pair :=
    hwithin _ hgrant
  have hfee : Envelope deps.config pair request.maxFeeSats := hwithin _ hexecute
  rw [hamount]
  rcases hfee with hown | ⟨a, ha, p, hrung⟩
  · exact hown.le
  · by_contra hmore
    have hpos := (partial_amount_bounds ha).1
    refine hfits hgrantable a ha p ((outgrows_iff hgrantable.2.1 hpos).mpr ⟨_, hrung, ?_⟩)
    omega

end Within

section SingleRung

def liquidityFailure : ExecutionResult :=
  { failedResult "temporary_channel_failure" 0 with
    failureData := .obj [("failure_class", .str "liquidity")] }

/-- Every seam answers at once; the router has a free route at one amount only, and no payment
succeeds. -/
def singleRung (config : EngineConfig) (amountSats probabilityPpm : ℤ) : EngineDeps Unit :=
  { config := config
    policy := some fun _ _ => (.ok ⟨"dynamic", "enabled"⟩, ())
    now := fun _ => (0.0, ())
    tryLock := fun _ => (true, ())
    getinfoId := fun _ => (.ok "03", ())
    beginCycle := fun _ => (true, ())
    pricePair := fun ctx _ _ =>
      (if ctx.amountSats = amountSats then .ok ⟨true, none, 0, [], probabilityPpm⟩
        else .error ⟨"no route"⟩, ())
    execute := fun _ _ => (liquidityFailure, ())
    insertOrAdoptHistory := fun _ _ => (1, ())
    reserveBudget := fun _ _ => (none, ())
    pendingSettlementRows := fun _ => ([], ())
    listsendpays := fun _ _ => (.ok (.obj []), ())
    listpeerchannelsFull := fun _ => (.ok (.obj []), ())
    hasObservations := fun _ _ => (false, ())
    perform := fun _ _ => () }

variable {config : EngineConfig} {pair : PairCandidate} {amountSats probabilityPpm : ℤ}
  {s : EngineState Unit}

theorem liquidityFailure_halves [UnicodeCase] :
    failureAllowsPartial liquidityFailure = true := by
  have hclass : toLowercase "liquidity" = "liquidity" := by
    unfold toLowercase
    rw [if_pos (by decide)]
    decide
  simp [failureAllowsPartial, liquidityFailure, failedResult, Json.get, Json.asStr, hclass]

theorem ask_run {α : Type} (f : Unit → α × Unit) : ask f s = (.ok (f ()).1, s) := rfl

theorem checkPolicies_run {checks : List (String × String × List String)}
    (h : ∀ c ∈ checks, "enabled" ∉ c.2.2) :
    checkPolicies (fun _ (_ : Unit) => (.ok ⟨"dynamic", "enabled"⟩, ())) checks s =
      (.ok (true, "policy allows pair"), s) := by
  induction checks with
  | nil => rfl
  | cons check checks ih =>
    obtain ⟨peerId, side, forbidden⟩ := check
    have hrest := ih fun c hc => h c (List.mem_cons_of_mem _ hc)
    have hside : "enabled" ∉ forbidden := h _ List.mem_cons_self
    unfold checkPolicies
    by_cases hpeer : peerId = ""
    · rw [if_pos hpeer]
      exact hrest
    · rw [if_neg hpeer, bind_run (ask_run _)]
      simp [hside, hrest]

theorem pairPolicyAllowed_run :
    pairPolicyAllowed (singleRung config amountSats probabilityPpm) pair s =
      (.ok (true, "policy allows pair"), s) := checkPolicies_run (by simp)

theorem ensureOurId_run (hid : s.ourId ≠ "") :
    ensureOurId (singleRung config amountSats probabilityPpm) s = (.ok s.ourId, s) := by
  unfold ensureOurId
  rw [bind_run (read_run _ _), if_neg hid]
  rfl

theorem routePairFresh_run (hid : s.ourId ≠ "") (exclude : List String) :
    routePairFresh (singleRung config amountSats probabilityPpm) pair exclude s =
      (.ok (some (if pair.amountSats = amountSats then .ok ⟨true, none, 0, [], probabilityPpm⟩
        else .error ⟨"no route"⟩)), s) := by
  unfold routePairFresh
  rw [bind_run (ask_run _)]
  change (ensureOurId _ >>= _) s = _
  rw [bind_run (ensureOurId_run hid), bind_run (ask_run _)]
  rfl

theorem executeRequest_run (config : EngineConfig) (pair : PairCandidate)
    (amountSats probabilityPpm : ℤ) (hid : s.ourId ≠ "") :
    ∃ request t, executeRequest (singleRung config amountSats probabilityPpm) pair s =
      (.ok liquidityFailure, t) ∧ request.maxFeeSats = pairMaxFeeSats pair ∧
        t.log = s.log ++ [.execute request liquidityFailure] ∧ t.ourId = s.ourId := by
  have hrequest : executionRequest (singleRung config amountSats probabilityPpm) pair s =
      (.ok ⟨pair.route, pair.amountSats, pair.sourceChannelId, pair.destChannelId,
        pairMaxFeeSats pair, s.ourId, asI64 (0.0 * 1000.0)⟩, s) := by
    unfold executionRequest
    rw [bind_run (ensureOurId_run hid), bind_run (ask_run _)]
    rfl
  unfold executeRequest
  rw [bind_run hrequest]
  exact ⟨_, _, rfl, rfl, rfl, rfl⟩

theorem reserveExecutionBudget_run (amountSats probabilityPpm : ℤ) (s : EngineState Unit)
    (hgrantable : Grantable config pair) (reservationId : String) :
    ∃ req t, reserveExecutionBudget (singleRung config amountSats probabilityPpm) pair
      reservationId s = (.ok (true, none), t) ∧ req.amountSats = pairMaxFeeSats pair ∧
        t.log = s.log ++ [.reserveBudget req none] ∧ t.ourId = s.ourId := by
  obtain ⟨hdaily, hfee, hwindow⟩ := hgrantable
  have hlimit : ¬globalBudgetLimit (singleRung config amountSats probabilityPpm) ≤ 0 := by
    unfold globalBudgetLimit
    change ¬max config.dailyBudgetSats 0 ≤ 0
    omega
  have hpositive : ¬max (pairMaxFeeSats pair) 0 ≤ 0 := by omega
  have hnow : asI64 0.0 = 0 := by decide
  have hsince : subI64 (asI64 0.0) (max config.totalCostBudgetWindowHours 1 * 3600) =
      some (0 - max config.totalCostBudgetWindowHours 1 * 3600) := by
    rw [hnow]
    refine i64?_eq_some.mpr ⟨?_, rfl⟩
    unfold InI64 at *
    omega
  have hweekly : subI64 (asI64 0.0) 604800 = some (-604800) := by
    rw [hnow]
    decide
  have hwindow : mulI64 (max config.totalCostBudgetWindowHours 1) 3600 =
      some (max config.totalCostBudgetWindowHours 1 * 3600) := i64?_eq_some.mpr ⟨hwindow, rfl⟩
  unfold reserveExecutionBudget
  dsimp only
  rw [if_neg hlimit, if_neg hpositive, bind_run (ask_run _)]
  dsimp only [singleRung]
  rw [bind_run (checked_run hwindow s), bind_run (checked_run hsince s),
    bind_run (checked_run hweekly s)]
  exact ⟨_, _, rfl, max_eq_left (by omega), rfl, rfl⟩

theorem retryWithExclusions_run :
    retryWithExclusions (singleRung config amountSats probabilityPpm) pair liquidityFailure s =
      (.ok (liquidityFailure, pair), s) := by
  rfl

def Sends {α : Type} (fee : ℤ) (m : Engine Unit α) (s : EngineState Unit) : Prop :=
  ∃ request q, .execute request q ∈ (m s).2.log ∧ request.maxFeeSats = fee

def Grows {ω α : Type} (m : Engine ω α) : Prop := ∀ s, s.log <+: (m s).2.log

theorem grows_of_logs {ω α : Type} {b : Bounds} {m : Engine ω α} {P : α → List EngineCall → Prop}
    (h : Logs b m P) : Grows m := by
  intro s
  obtain ⟨calls, hlog, -⟩ := h.always s
  exact ⟨calls, hlog.symm⟩

theorem Grows.bind {ω α β : Type} {m : Engine ω α} {k : α → Engine ω β} (hm : Grows m)
    (hk : ∀ a, Grows (k a)) : Grows (m >>= k) := by
  intro s
  have hs := hm s
  change s.log <+: (Eff.bind m k s).2.log
  unfold Eff.bind
  rcases hrun : m s with ⟨r, t⟩
  rw [hrun] at hs
  cases r with
  | ok a => exact hs.trans (hk a t)
  | err e => exact hs
  | panic => exact hs

theorem sends_of_run {α β : Type} {fee : ℤ} {m : Engine Unit α} {k : α → Engine Unit β}
    {t : EngineState Unit} {a : α} (hm : m s = (.ok a, t)) (hk : Sends fee (k a) t) :
    Sends fee (m >>= k) s := by
  unfold Sends
  rwa [bind_run hm]

theorem sends_of_grows {α β : Type} {fee : ℤ} {m : Engine Unit α} {k : α → Engine Unit β}
    (hm : Sends fee m s) (hk : ∀ a, Grows (k a)) : Sends fee (m >>= k) s := by
  obtain ⟨request, q, hmem, hfee⟩ := hm
  refine ⟨request, q, ?_, hfee⟩
  change _ ∈ (Eff.bind m k s).2.log
  unfold Eff.bind
  rcases hrun : m s with ⟨r, t⟩
  rw [hrun] at hmem
  cases r with
  | ok a => exact (hk a t).subset hmem
  | err e => exact hmem
  | panic => exact hmem

theorem grows_pure {ω α : Type} (a : α) : Grows (pure a : Engine ω α) := fun _ => List.prefix_rfl

theorem grows_checked {ω α : Type} (o : Option α) : Grows (Eff.checked o : Engine ω α) := by
  intro s
  cases o with
  | none => exact List.prefix_rfl
  | some a => exact List.prefix_rfl

theorem ladderRung_skips (config : EngineConfig) (pair : PairCandidate) (hid : s.ourId ≠ "")
    {originalAmount originalBudget a : ℤ} (ha : a ≠ amountSats) (prior : ExecutionResult)
    (partialAttempts : List Json)
    (totalAttempts : ℤ) :
    ∃ plan attempt, ladderRung (singleRung config amountSats probabilityPpm) prior originalAmount
      originalBudget a partialAttempts totalAttempts pair s =
        (.ok (.failed plan attempt totalAttempts), s) := by
  unfold ladderRung
  dsimp only
  rw [bind_run (routePairFresh_run hid [])]
  rw [if_neg ha]
  exact ⟨_, _, rfl⟩

/-- At its amount the rung is priced for nothing and sent under its own ceiling. -/
theorem ladderRung_sends (hid : s.ourId ≠ "") {originalAmount originalBudget fee : ℤ}
    (hfee : rungCeiling config originalAmount originalBudget amountSats probabilityPpm = some fee)
    (hpos : 0 < fee) (prior : ExecutionResult) (partialAttempts : List Json)
    (totalAttempts : ℤ) :
    Sends fee (ladderRung (singleRung config amountSats probabilityPpm) prior originalAmount
      originalBudget amountSats partialAttempts totalAttempts pair) s := by
  unfold ladderRung
  dsimp only
  refine sends_of_run (routePairFresh_run hid []) ?_
  rw [if_pos rfl]
  dsimp only
  rw [if_neg (by simp)]
  refine sends_of_run (checked_run hfee s) ?_
  rw [if_neg (by omega)]
  refine sends_of_grows ?_ fun retry => (grows_checked _).bind fun total => grows_pure _
  obtain ⟨request, t, hrun, hmax, hlog, -⟩ := executeRequest_run config
    { pair with
      amountSats := amountSats
      pairBudgetSats := rungBudget originalAmount originalBudget amountSats
      effectiveBudgetSats := some fee
      route := []
      routeCostSats := 0 } amountSats probabilityPpm hid
  refine ⟨request, liquidityFailure, ?_, hmax⟩
  rw [hrun, hlog]
  exact List.mem_append_right _ (List.mem_singleton_self _)

theorem grows_ladder {ω : Type} (deps : EngineDeps ω) (prior : ExecutionResult)
    (originalAmount originalBudget : ℤ) (amounts : List ℤ) (partialAttempts : List Json)
    (totalAttempts : ℤ) (plan : PairCandidate) :
    Grows (ladder deps prior originalAmount originalBudget amounts partialAttempts totalAttempts
      plan) :=
  grows_of_logs (logs_ladder (b := .none) deps prior (fun _ _ _ _ _ => trivial) _ _ _)

theorem ladder_sends (hid : s.ourId ≠ "") {originalAmount originalBudget fee : ℤ}
    {amounts : List ℤ} (hmem : amountSats ∈ amounts)
    (hfee : rungCeiling config originalAmount originalBudget amountSats probabilityPpm = some fee)
    (hpos : 0 < fee) (prior : ExecutionResult) (partialAttempts : List Json)
    (totalAttempts : ℤ) :
    Sends fee (ladder (singleRung config amountSats probabilityPpm) prior originalAmount
      originalBudget amounts partialAttempts totalAttempts pair) s := by
  induction amounts generalizing pair partialAttempts with
  | nil => simp at hmem
  | cons a amounts ih =>
    by_cases ha : a = amountSats
    · subst ha
      refine sends_of_grows (ladderRung_sends hid hfee hpos ..) fun step => ?_
      match step with
      | .unavailable => exact grows_pure _
      | .finished result plan => exact grows_pure _
      | .failed plan attempt total => exact grows_ladder _ _ _ _ _ _ _ _
    · obtain ⟨plan, attempt, hskip⟩ := ladderRung_skips config pair hid ha prior partialAttempts
        totalAttempts
      refine sends_of_run hskip ?_
      exact ih ((List.mem_cons.mp hmem).resolve_left (Ne.symm ha)) _

theorem payAndClose_sends [UnicodeCase] (hid : s.ourId ≠ "") {fee : ℤ}
    (hmem : amountSats ∈ nativePartialAmounts pair.amountSats)
    (hfee : rungCeiling config pair.amountSats pair.pairBudgetSats amountSats probabilityPpm =
      some fee)
    (hpos : 0 < fee) (reservationId : String) (rebalanceId : Option ℤ) :
    Sends fee (payAndClose (singleRung config amountSats probabilityPpm) pair reservationId true
      true rebalanceId) s := by
  obtain ⟨request, t, hrun, -, -, hid'⟩ := executeRequest_run config pair amountSats
    probabilityPpm hid
  rw [← hid'] at hid
  unfold payAndClose
  refine sends_of_run hrun (sends_of_run retryWithExclusions_run (sends_of_grows ?_ fun out => ?_))
  · unfold retryWithPartialAmounts
    rw [if_neg (by simp [liquidityFailure, failedResult]),
      if_neg (by simp [liquidityFailure_halves])]
    refine sends_of_grows (ladder_sends hid hmem hfee hpos ..) fun outcome => ?_
    match outcome with
    | .finished result plan => exact grows_pure _
    | .exhausted partialAttempts total => exact grows_pure _
  · refine (grows_of_logs (logs_recordRebalanceResult _ _ _ _ _ (b := .none))).bind fun _ => ?_
    refine (grows_of_logs (logs_finishExecutionBudget _ _ _ _ (b := .none))).bind fun _ => ?_
    by_cases hsuccess : (!out.1.success) = true
    · rw [if_pos hsuccess]
      exact (grows_of_logs (ofKind_pushSegmentObservationSnapshot _ (b := .none))).bind fun _ =>
        grows_pure _
    · rw [if_neg hsuccess]
      exact grows_pure _

theorem historyId_run (id : ℤ) :
    historyId (singleRung config amountSats probabilityPpm) pair (some id) s = (.ok (some id), s) :=
  rfl

theorem reservationIdOf_run (id : ℤ) :
    reservationIdOf pair (some id) s = (.ok (toString id), s) := rfl

theorem rung_run [UnicodeCase] {fee : ℤ} (hgrantable : Grantable config pair)
    (hmem : amountSats ∈ nativePartialAmounts pair.amountSats)
    (hfee : rungCeiling config pair.amountSats pair.pairBudgetSats amountSats probabilityPpm =
      some fee)
    (hpos : 0 < fee) :
    ∃ req request q log, (executePair (singleRung config amountSats probabilityPpm) pair true true
      (some 1) (.start () "03" 1 [])).2.log = log ∧ .reserveBudget req none ∈ log ∧
        .execute request q ∈ log ∧ req.amountSats = pairMaxFeeSats pair ∧
          request.maxFeeSats = fee := by
  obtain ⟨s, hregister, hs⟩ : ∃ s, registerInflight pair.destChannelId
      (EngineState.start () "03" 1 []) = (.ok (), s) ∧ s.ourId = "03" := ⟨_, rfl, by split <;> rfl⟩
  obtain ⟨req, t, hreserve, hamount, hlog, hid⟩ :=
    reserveExecutionBudget_run amountSats probabilityPpm s hgrantable (toString (1 : ℤ))
  have hid : t.ourId ≠ "" := by
    rw [hid, hs]
    decide
  have hpay : reserveAndPay (singleRung config amountSats probabilityPpm) pair (toString (1 : ℤ))
      true true (some 1) s = payAndClose (singleRung config amountSats probabilityPpm) pair
        (toString (1 : ℤ)) true true (some 1) t := by
    unfold reserveAndPay
    rw [if_pos rfl, bind_run hreserve]
  have hrun : executePair (singleRung config amountSats probabilityPpm) pair true true (some 1)
      (.start () "03" 1 []) = (payAndClose (singleRung config amountSats probabilityPpm) pair
        (toString (1 : ℤ)) true true (some 1) >>= fun result => do
          unregisterInflight pair.destChannelId
          pure result) t := by
    unfold executePair
    rw [bind_run pairPolicyAllowed_run]
    dsimp only
    rw [if_neg (by simp)]
    rw [bind_run (historyId_run 1), bind_run (reservationIdOf_run 1), bind_run hregister,
      bind_run_congr hpay]
  have hunregister : ∀ dest, Grows (unregisterInflight dest : Engine Unit Unit) :=
    fun dest s => List.prefix_rfl
  have htail : ∀ result : ExecutionResult, Grows (do
      unregisterInflight pair.destChannelId
      pure result : Engine Unit ExecutionResult) :=
    fun result => (hunregister _).bind fun _ => grows_pure result
  obtain ⟨request, q, hmemRequest, hmax⟩ := sends_of_grows
    (payAndClose_sends hid hmem hfee hpos (toString (1 : ℤ)) (some 1)) htail
  have hgrows := (grows_of_logs (logs_payAndClose (singleRung config amountSats probabilityPpm) pair
    (toString (1 : ℤ)) true true (some 1))).bind htail t
  refine ⟨req, request, q, _, rfl, ?_, ?_, hamount, hmax⟩
  · rw [hrun]
    refine hgrows.subset ?_
    rw [hlog]
    exact List.mem_append_right _ (List.mem_singleton_self _)
  · rw [hrun]
    exact hmemRequest

end SingleRung

section Ladder

/-- In every run of execute_pair, whatever its environment, every request keeps to the granted
reservation, exactly when no rung of the pair's ladder can outgrow the plan. -/
theorem attempts_within_reservation_iff [UnicodeCase] (config : EngineConfig)
    (pair : PairCandidate) :
    (∀ (ω : Type) (deps : EngineDeps ω), deps.config = config →
      ∀ accountCosts rebalanceId world ourId nonce inflight log req request q,
        (executePair deps pair true accountCosts rebalanceId
          (.start world ourId nonce inflight)).2.log = log →
        .reserveBudget req none ∈ log → .execute request q ∈ log →
          request.maxFeeSats ≤ req.amountSats) ↔
      (Grantable config pair →
        ∀ a ∈ nativePartialAmounts pair.amountSats, ∀ p, ¬Outgrows config pair a p) := by
  constructor
  · intro hwithin hgrantable a ha p hout
    obtain ⟨fee, hfee, hmore⟩ := (outgrows_iff hgrantable.2.1 (partial_amount_bounds ha).1).mp hout
    have hpos : 0 < fee := lt_trans hgrantable.2.1 hmore
    obtain ⟨req, request, q, log, hlog, hgrant, hexecute, hamount, hmax⟩ :=
      rung_run hgrantable ha hfee hpos
    have hle :=
      hwithin Unit (singleRung config a p) rfl true (some 1) () "03" 1 [] log req request q
      hlog hgrant hexecute
    omega
  · rintro hfits ω deps rfl accountCosts rebalanceId world ourId nonce inflight log req request q
      hlog hgrant hexecute
    exact within_of_not_outgrows hlog hfits hgrant hexecute

end Ladder

section Bonus

def bonusConfig : EngineConfig :=
  { pairFeeCapPpm := 0
    capexProbabilityBudgetBonus := 0.5
    dailyBudgetSats := 100
    weeklyBudgetSats := none
    totalCostBudgetWindowHours := 24
    allowZeroCostAutoRebalanceWhenBudgetZero := false
    askreneLayerNames := []
    invoiceFinalCltv := 18 }

def partialPair : PairCandidate :=
  { sourceChannelId := "1x1x1"
    destChannelId := "2x2x2"
    sourcePeerId := "02aa"
    destPeerId := "02bb"
    amountSats := 1200
    pairBudgetSats := 12
    effectiveBudgetSats := none
    routeCostSats := 12
    route := []
    reasonCode := "manual"
    destCapacitySats := 0
    destLocalRatio := 0.0 }

/-- Twelve sats are reserved, and the rung sends its request under fifteen. -/
theorem bonus_rung_exceeds_reservation :
    ∃ req request q log, (@executePair Unit asciiCase (singleRung bonusConfig 1000 1000000)
      partialPair true true (some 1) (.start () "03" 1 [])).2.log = log ∧
        .reserveBudget req none ∈ log ∧ .execute request q ∈ log ∧ req.amountSats = 12 ∧
          request.maxFeeSats = 15 :=
  @rung_run bonusConfig partialPair 1000 1000000 asciiCase 15 ⟨by decide, by decide, by decide⟩
    (by decide) (by decide +kernel) (by decide)

end Bonus

end FeeEnvelope
