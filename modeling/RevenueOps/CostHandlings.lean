import RevenueOps.CostBookings

/-! What each entry books for the rows that it inserts: one cost for a settled payment with a fee,
and none for a parked or a failed one. -/
namespace CostHandlings

open FallibleState JsonValue RustNumber RustText RouteExecutor RebalanceEngine RebalanceFacade
open EngineAttempts EngineTrail HeldReservations CostBookings

variable {ω : Type}

section Fees

/-- The fee that a settled reply reports; where the engine accounts, the whole sats stand in for
millisats that are not positive. -/
def reportedFee (accountCosts : Bool) (r : ExecutionResult) : ℤ :=
  if 0 < r.feeMsat then r.feeMsat else if accountCosts then max r.feeSats 0 * 1000 else 0

/-- One cost for a positive fee, rounded up to whole sats, and none otherwise. -/
def Charged (feeMsat : ℤ) (costs : List RebalanceCost) : Prop :=
  (0 < feeMsat ∧ ∃ cost, costs = [cost] ∧ cost.costMsat = feeMsat ∧
    cost.costSats = ⌈(feeMsat : ℚ) / 1000⌉) ∨ (feeMsat ≤ 0 ∧ costs = [])

theorem Charged.length {feeMsat : ℤ} {costs : List RebalanceCost} (h : Charged feeMsat costs) :
    costs.length ≤ 1 := by
  rcases h with ⟨-, cost, rfl, -⟩ | ⟨-, rfl⟩
  · simp
  · simp

theorem reportedFee_eq {r q : ExecutionResult} (h : SameFee r q) (accountCosts : Bool) :
    reportedFee accountCosts r = reportedFee accountCosts q := by
  unfold reportedFee
  rw [h.msat, h.sats]

theorem ceil_msat {feeMsat feeSats : ℤ} (hlow : feeMsat ≤ feeSats * 1000)
    (hhigh : (feeSats - 1) * 1000 < feeMsat) : feeSats = ⌈(feeMsat : ℚ) / 1000⌉ := by
  symm
  rw [Int.ceil_eq_iff, lt_div_iff₀ (by norm_num), div_le_iff₀ (by norm_num)]
  constructor
  · exact_mod_cast hhigh
  · exact_mod_cast hlow

theorem engine_ceil {feeMsat feeSats : ℤ} (hpos : 0 < feeMsat)
    (h : RouteExecutor.baseToSatsCeil feeMsat = some feeSats) :
    feeSats = ⌈(feeMsat : ℚ) / 1000⌉ := by
  obtain ⟨sum, hsum, rfl⟩ := Option.map_eq_some_iff.mp h
  obtain ⟨-, rfl⟩ := i64?_eq_some.mp hsum
  rw [Int.tdiv_eq_ediv_of_nonneg (by omega)]
  exact ceil_msat (by omega) (by omega)

theorem facade_ceil (feeMsat : ℤ) :
    RebalanceFacade.baseToSatsCeil feeMsat = ⌈(feeMsat : ℚ) / 1000⌉ := by
  unfold RebalanceFacade.baseToSatsCeil
  by_cases h : feeMsat % 1000 = 0
  · rw [if_pos h]
    exact ceil_msat (by omega) (by omega)
  · rw [if_neg h]
    exact ceil_msat (by omega) (by omega)

end Fees

section Rows

variable {id : ℤ} {cs ds : List EngineCall}

/-- Calls that may close the row, but park it not, pay nothing and book nothing. -/
structure Plain (id : ℤ) (calls : List EngineCall) : Prop where
  alone : Alone id calls
  costs : costCalls calls = []
  replies : settledReplies calls = []
  parks : parkings id calls = 0

theorem plain_of_idle (h : Idle cs) (id : ℤ) : Plain id cs :=
  ⟨h.alone id, h.costCalls, h.settledReplies, h.parkings id⟩

theorem Plain.nil : Plain id [] := plain_of_idle Idle.nil id

theorem Plain.append (h : Plain id cs) (k : Plain id ds) : Plain id (cs ++ ds) := by
  constructor
  · exact h.alone.append k.alone
  · rw [costCalls_append, h.costs, k.costs, List.append_nil]
  · rw [settledReplies_append, h.replies, k.replies, List.append_nil]
  · rw [parkings_append, h.parks, k.parks]

theorem plain_update {b : Bounds} (deps : EngineDeps ω) (status : String) (err : Option String) :
    Logs b (tell deps (.updateHistory id status err)) fun _ calls => Plain id calls := by
  refine Logs.mono (logs_tell trivial) ?_
  rintro _ calls rfl
  refine ⟨List.forall_mem_singleton.mpr ⟨by simp [kind], fun i hi => hi.symm⟩, rfl, rfl, rfl⟩

inductive Closing (accountCosts : Bool) (id : ℤ) (r : ExecutionResult) :
    List EngineCall → Prop where
  | settled (update : HistorySuccess) (costs : List RebalanceCost) (hsuccess : r.success = true)
    (haccount : accountCosts = true → Charged (reportedFee true r) costs)
    (hleave : accountCosts = false → costs = []) :
      Closing accountCosts id r
        (.updateHistorySuccess id update :: costs.map .recordRebalanceCost)
  | parked (error hash : String) (hfailed : r.success = false) :
      Closing accountCosts id r [.updateHistoryPendingSettlement id error hash]
  | failed (status : String) (err : Option String) (hfailed : r.success = false) :
      Closing accountCosts id r [.updateHistory id status err]

theorem fees_recordCost {b : Bounds} (deps : EngineDeps ω) (r : ExecutionResult)
    (pair : PairCandidate) (amountSats : ℤ) :
    Logs b (recordCost deps r pair amountSats) fun _ calls =>
      ∃ costs, calls = costs.map .recordRebalanceCost ∧ Charged (reportedFee true r) costs := by
  refine Logs.after_checked fun feeMsat hfee => ?_
  have hreported : feeMsat = reportedFee true r ∨ (feeMsat ≤ 0 ∧ reportedFee true r ≤ 0) := by
    unfold reportedFee
    by_cases hmsat : r.feeMsat ≤ 0
    · rw [if_pos hmsat] at hfee
      obtain ⟨-, rfl⟩ := i64?_eq_some.mp hfee
      rw [if_neg (by omega), if_pos rfl]
      exact .inl rfl
    · rw [if_neg hmsat] at hfee
      rw [if_pos (by omega)]
      exact .inl (Option.some.inj hfee).symm
  refine Logs.ite (fun hpos => ?_) fun hpos => Logs.pure ⟨[], rfl, .inr ⟨by omega, rfl⟩⟩
  have hfeeMsat : feeMsat = reportedFee true r := by omega
  refine Logs.after_checked fun feeSats hsats => Logs.after_silent silent_ask fun now => ?_
  refine Logs.mono (logs_tell trivial) ?_
  rintro _ calls rfl
  refine ⟨[_], rfl, .inl ⟨by omega, _, rfl, hfeeMsat, ?_⟩⟩
  rw [← hfeeMsat]
  exact engine_ceil hpos hsats

theorem fees_recordRebalanceResult {b : Bounds} (deps : EngineDeps ω) (id : ℤ)
    (r : ExecutionResult) (pair : PairCandidate) (accountCosts : Bool) :
    Logs b (recordRebalanceResult deps (some id) r pair accountCosts) fun _ calls =>
      Closing accountCosts id r calls := by
  refine Logs.ite (fun hsuccess => ?_) fun hsuccess => ?_
  · refine Logs.bind (logs_tell trivial) ?_
    rintro _ update rfl
    refine Logs.ite (fun haccount => ?_) fun haccount => Logs.pure ?_
    · refine (fees_recordCost deps r pair _).mono ?_
      rintro _ more ⟨costs, rfl, hcharged⟩
      refine .settled _ costs hsuccess (fun _ => hcharged) fun hleave => ?_
      rw [haccount] at hleave
      cases hleave
    · exact .settled _ [] hsuccess (fun h => absurd h haccount) fun _ => rfl
  have hfailed : r.success = false := by simpa using hsuccess
  refine Logs.ite (fun _ => ?_) fun _ => ?_
  · cases sweepableHash r with
    | some hash =>
      refine Logs.mono (logs_tell trivial) ?_
      rintro _ calls rfl
      exact .parked _ _ hfailed
    | none =>
      refine Logs.mono (logs_tell trivial) ?_
      rintro _ calls rfl
      exact .failed _ _ hfailed
  · refine Logs.mono (logs_tell trivial) ?_
    rintro _ calls rfl
    exact .failed _ _ hfailed

end Rows

section Execution

structure Worked (accountCosts : Bool) (id : ℤ) (r : ExecutionResult) (calls : List EngineCall) :
    Prop where
  alone : Alone id calls
  booked : bookings none calls = (costCalls calls).map (Prod.mk id)
  fate : (r.success = true ∧ parkings id calls = 0 ∧
      (accountCosts = true → Charged (reportedFee true r) (costCalls calls)) ∧
      (accountCosts = false → costCalls calls = []) ∧
      ∃ q, settledReplies calls = [q] ∧ SameFee r q) ∨
    (r.success = false ∧ costCalls calls = [] ∧ settledReplies calls = [] ∧ parkings id calls ≤ 1)

variable {accountCosts : Bool} {id : ℤ} {r : ExecutionResult}
  {front attempts close tail calls : List EngineCall}

theorem attempts_alone (h : OfKind [.attempt] calls) (id : ℤ) :
    Alone id calls ∧ costCalls calls = [] ∧ parkings id calls = 0 := by
  refine ⟨fun c hc => ?_, List.filterMap_eq_nil_iff.mpr fun c hc => ?_,
    List.countP_eq_zero.mpr fun c hc => ?_⟩
  all_goals
    have hkind := h c hc
    cases c <;> simp_all [kind, WritesRow]

theorem costCalls_map (costs : List RebalanceCost) :
    costCalls (costs.map .recordRebalanceCost) = costs := by
  induction costs with
  | nil => rfl
  | cons cost costs ih => exact congrArg (cost :: ·) ih

theorem costs_plain (costs : List RebalanceCost) (id : ℤ) :
    Alone id (costs.map .recordRebalanceCost) ∧
      settledReplies (costs.map .recordRebalanceCost) = [] := by
  refine ⟨fun c hc => ?_, List.filterMap_eq_nil_iff.mpr fun c hc => ?_⟩
  all_goals
    obtain ⟨cost, -, rfl⟩ := List.mem_map.mp hc
    simp [kind, WritesRow]

theorem worked_failed (h : Attempted r attempts) (hi : Idle tail) (hfailed : r.success = false)
    (halone : Alone id close) (hcosts : costCalls close = []) (hreplies : settledReplies close = [])
    (hparks : parkings id close ≤ 1) : Worked accountCosts id r (attempts ++ (close ++ tail)) := by
  obtain ⟨hmine, hfree, hopen⟩ := attempts_alone h.kinds id
  have htail := plain_of_idle hi id
  have hnone : costCalls (attempts ++ (close ++ tail)) = [] := by
    rw [costCalls_append, hfree, costCalls_append, hcosts, htail.costs, List.append_nil]
    rfl
  refine ⟨hmine.append (halone.append htail.alone), ?_, .inr ⟨hfailed, hnone, ?_, ?_⟩⟩
  · rw [bookings_eq_nil hnone, hnone]
    rfl
  · rcases h.fee with ⟨hok, -⟩ | ⟨-, hquiet⟩
    · rw [hfailed] at hok
      cases hok
    · rw [settledReplies_append, hquiet, settledReplies_append, hreplies, htail.replies]
      rfl
  · rw [parkings_append, hopen, parkings_append, htail.parks]
    omega

theorem Worked.of_parts (h : Attempted r attempts) (k : Closing accountCosts id r close)
    (hi : Idle tail) : Worked accountCosts id r (attempts ++ (close ++ tail)) := by
  obtain ⟨halone, hcosts, hparks⟩ := attempts_alone h.kinds id
  have htail := plain_of_idle hi id
  cases k with
  | settled update costs hsuccess haccount hleave =>
    obtain ⟨hmine, hsilent⟩ := costs_plain costs id
    have hone : costs.length ≤ 1 := by
      cases hacc : accountCosts with
      | true => exact (haccount hacc).length
      | false => simp [hleave hacc]
    have hall : costCalls (attempts ++ (.updateHistorySuccess id update ::
        costs.map .recordRebalanceCost ++ tail)) = costs := by
      rw [costCalls_append, hcosts, List.nil_append, List.cons_append,
        costCalls_cons_of_ne (by simp), costCalls_append, costCalls_map, htail.costs,
        List.append_nil]
    refine ⟨halone.append (Alone.append ?_ htail.alone), ?_, .inl ⟨hsuccess, ?_, ?_, ?_, ?_⟩⟩
    · refine List.forall_mem_cons.mpr ⟨⟨by simp [kind], fun i hi => hi.symm⟩, hmine⟩
    · rw [hall]
      exact (bookings_append_success hcosts).trans (bookings_costs hone htail.costs)
    · rw [parkings_append, hparks, parkings_append, htail.parks, parkings,
        List.countP_cons_of_neg (by simp)]
      simp
    · rwa [hall]
    · rwa [hall]
    · rcases h.fee with ⟨-, q, hq, hfee⟩ | ⟨hno, -⟩
      · refine ⟨q, ?_, hfee⟩
        rw [settledReplies_append, hq, settledReplies_append, htail.replies, List.append_nil]
        exact congrArg ([q] ++ ·) hsilent
      · rw [hsuccess] at hno
        cases hno
  | parked error hash hfailed =>
    refine worked_failed h hi hfailed ?_ rfl rfl ?_
    · exact List.forall_mem_singleton.mpr ⟨by simp [kind], fun i hi => hi.symm⟩
    · exact List.countP_le_length
  | failed status err hfailed =>
    refine worked_failed h hi hfailed ?_ rfl rfl ?_
    · exact List.forall_mem_singleton.mpr ⟨by simp [kind], fun i hi => hi.symm⟩
    · exact List.countP_le_length

theorem Worked.after_idle (h : Worked accountCosts id r calls) (hi : Idle front) :
    Worked accountCosts id r (front ++ calls) := by
  have hfront := plain_of_idle hi id
  have hcosts : costCalls (front ++ calls) = costCalls calls := by
    rw [costCalls_append, hfront.costs, List.nil_append]
  have hreplies : settledReplies (front ++ calls) = settledReplies calls := by
    rw [settledReplies_append, hfront.replies, List.nil_append]
  have hparks : parkings id (front ++ calls) = parkings id calls := by
    rw [parkings_append, hfront.parks, Nat.zero_add]
  constructor
  · exact hfront.alone.append h.alone
  · rw [bookings_idle_append hi, hcosts]
    exact h.booked
  · rw [hcosts, hreplies, hparks]
    exact h.fate

theorem Worked.unpaid (hfailed : r.success = false) : Worked accountCosts id r [] := by
  have hnone : Attempted r [] := ⟨OfKind.nil _, .inr ⟨hfailed, rfl⟩⟩
  refine worked_failed hnone Idle.nil hfailed (List.forall_mem_nil _) rfl rfl ?_
  exact Nat.zero_le 1

theorem fees_payAndClose [UnicodeCase] (deps : EngineDeps ω) (pair : PairCandidate)
    (reservationId : String) (reserved accountCosts : Bool) (id : ℤ) :
    Logs .none (payAndClose deps pair reservationId reserved accountCosts (some id)) fun r calls =>
      Worked accountCosts id r calls := by
  refine Logs.bind (fees_executeRequest deps pair) ?_
  rintro first calls ⟨req, rfl⟩
  refine Logs.bind (fees_retryWithExclusions deps pair first) ?_
  rintro ⟨second, plan⟩ retries hretry
  refine Logs.bind (fees_retryWithPartialAmounts deps plan second) ?_
  rintro ⟨r, final⟩ rungs hladder
  refine Logs.bind (fees_recordRebalanceResult deps id r final accountCosts)
    fun _ close hclose => ?_
  refine Logs.bind (logs_finishExecutionBudget deps reservationId reserved r)
    fun _ budget hbudget => ?_
  have hattempts : Attempted r ([.execute req first] ++ retries ++ rungs) :=
    hladder _ (hretry _ (.single (.refl first)))
  have hidle : Idle budget := idle_of_kinds (hbudget.ofKind.mono (by simp))
  have hend : ∀ notes, Idle notes → Worked accountCosts id r
      ([.execute req first] ++ (retries ++ (rungs ++ (close ++ (budget ++ notes))))) := by
    intro notes hnotes
    have hparts := Worked.of_parts hattempts hclose (hidle.append hnotes)
    simpa only [List.append_assoc] using hparts
  refine Logs.ite (fun _ => ?_) fun _ => Logs.pure (hend [] Idle.nil)
  refine Logs.bind (idle_pushSegmentObservationSnapshot deps) fun _ notes hnotes => Logs.pure ?_
  rw [List.append_nil]
  exact hend notes hnotes

theorem blockedResult_failed (effectiveBudget amountSats : ℤ) (block : BudgetBlock) :
    (blockedResult effectiveBudget amountSats block).success = false := by
  cases block <;> rfl

theorem fees_reserveExecutionBudget (deps : EngineDeps ω) (pair : PairCandidate)
    (reservationId : String) :
    Logs .none (reserveExecutionBudget deps pair reservationId) fun out calls =>
      Idle calls ∧ ∀ r, out.2 = some r → r.success = false := by
  have hopen : ∀ (reserved : Bool) (r : ExecutionResult),
      (reserved, (none : Option ExecutionResult)).2 = some r → r.success = false := by
    rintro reserved r ⟨⟩
  refine Logs.ite (fun _ => Logs.ite (fun _ => Logs.pure ⟨Idle.nil, hopen _⟩) fun _ =>
    Logs.pure ⟨Idle.nil, ?_⟩) fun _ => Logs.ite (fun _ => Logs.pure ⟨Idle.nil, hopen _⟩) fun _ => ?_
  · rintro r ⟨⟩
    rfl
  refine Logs.after_silent silent_ask fun now => Logs.after_checked fun window _ => ?_
  refine Logs.after_checked fun since _ => Logs.after_checked fun weekly _ => ?_
  refine Logs.bind (logs_askLogged fun _ => trivial) ?_
  rintro block calls rfl
  have hidle : ∀ req, Idle ([.reserveBudget req block] ++ []) := fun req =>
    List.forall_mem_singleton.mpr rfl
  cases block with
  | none => exact Logs.pure ⟨hidle _, hopen _⟩
  | some block =>
    refine Logs.pure ⟨hidle _, ?_⟩
    rintro r ⟨⟩
    exact blockedResult_failed _ _ block

theorem fees_reserveAndPay [UnicodeCase] (deps : EngineDeps ω) (pair : PairCandidate)
    (reservationId : String) (asked accountCosts : Bool) (id : ℤ) :
    Logs .none (reserveAndPay deps pair reservationId asked accountCosts (some id)) fun r calls =>
      Worked accountCosts id r calls := by
  refine Logs.ite (fun _ => ?_) fun _ => fees_payAndClose deps pair _ _ _ id
  refine Logs.bind (fees_reserveExecutionBudget deps pair reservationId) ?_
  rintro ⟨reserved, block⟩ reserve ⟨hidle, hblock⟩
  cases block with
  | some r =>
    have hfailed := hblock r rfl
    have hnone : Attempted r [] := ⟨OfKind.nil _, .inr ⟨hfailed, rfl⟩⟩
    refine Logs.bind (fees_recordRebalanceResult deps id r pair false) fun _ close hclose => ?_
    refine Logs.pure (Worked.after_idle ?_ hidle)
    have hunaccounted : Closing accountCosts id r close := by
      cases hclose with
      | settled update costs hsuccess => rw [hfailed] at hsuccess; cases hsuccess
      | parked error hash => exact .parked error hash hfailed
      | failed status err => exact .failed status err hfailed
    exact Worked.of_parts hnone hunaccounted Idle.nil
  | none =>
    refine (fees_payAndClose deps pair _ reserved accountCosts id).mono fun r calls hworked => ?_
    exact hworked.after_idle hidle

theorem fees_executePair [UnicodeCase] (deps : EngineDeps ω) (pair : PairCandidate)
    (asked accountCosts : Bool) (id : ℤ) :
    Logs .none (executePair deps pair asked accountCosts (some id)) fun r calls =>
      Worked accountCosts id r calls := by
  refine Logs.after_silent (silent_pairPolicyAllowed deps pair) ?_
  rintro ⟨allowed, reason⟩
  refine Logs.ite (fun _ => Logs.pure (.unpaid rfl)) fun _ => ?_
  refine Logs.bind (logs_historyId deps pair (some id)) fun rowId rows hrows => ?_
  cases hrows
  refine Logs.bind (logs_reservationIdOf pair _) ?_
  rintro reservationId calls ⟨rfl, -⟩
  refine Logs.after_silent (silent_modify fun s => ?_) fun _ => ?_
  · split <;> rfl
  refine Logs.bind (fees_reserveAndPay deps pair _ asked accountCosts id) fun r calls hworked => ?_
  refine Logs.after_silent (silent_modify fun _ => rfl) fun _ => Logs.pure ?_
  rwa [List.append_nil]

end Execution

section Entries

variable {accountCosts : Bool} {id : ℤ} {r : ExecutionResult} {calls tail : List EngineCall}

/-- What an entry has booked for a row that it inserted: the cost of its settled payment, or
nothing for a payment that failed or is parked. -/
structure Handled (accountCosts : Bool) (id : ℤ) (calls : List EngineCall) : Prop where
  alone : Alone id calls
  booked : bookings none calls = (costCalls calls).map (Prod.mk id)
  fate : (parkings id calls = 0 ∧ ∃ q, settledReplies calls = [q] ∧
      Charged (reportedFee accountCosts q) (costCalls calls)) ∨
    (costCalls calls = [] ∧ settledReplies calls = [] ∧ parkings id calls ≤ 1)

structure Handling where
  row : HistoryRow
  id : ℤ
  calls : List EngineCall

def Handling.log (h : Handling) : List EngineCall := .insertOrAdoptHistory h.row h.id :: h.calls

def Handles (accountCosts : Bool) (log : List EngineCall) : Prop :=
  ∃ (front : List EngineCall) (handlings : List Handling), Idle front ∧
    log = front ++ handlings.flatMap Handling.log ∧
      ∀ h ∈ handlings, 0 < h.id → Handled accountCosts h.id h.calls

theorem Handles.idle (h : Idle calls) : Handles accountCosts calls :=
  ⟨calls, [], h, by simp, by simp⟩

theorem Handles.single (row : HistoryRow) (h : 0 < id → Handled accountCosts id calls) :
    Handles accountCosts (.insertOrAdoptHistory row id :: calls) := by
  refine ⟨[], [⟨row, id, calls⟩], Idle.nil, by simp [Handling.log], ?_⟩
  exact List.forall_mem_singleton.mpr h

theorem Handled.of_plain (h : Plain id calls) : Handled false id calls := by
  refine ⟨h.alone, ?_, .inr ⟨h.costs, h.replies, ?_⟩⟩
  · rw [bookings_eq_nil h.costs, h.costs]
    rfl
  · rw [h.parks]
    exact Nat.zero_le 1

theorem Handled.after_idle {front : List EngineCall}
    (h : Handled accountCosts id calls) (hi : Idle front) :
    Handled accountCosts id (front ++ calls) := by
  have hfront := plain_of_idle hi id
  refine ⟨hfront.alone.append h.alone, ?_, ?_⟩
  · rw [bookings_idle_append hi, costCalls_append, hfront.costs]
    exact h.booked
  · rw [costCalls_append, hfront.costs, settledReplies_append, hfront.replies, parkings_append,
      hfront.parks, Nat.zero_add]
    exact h.fate

theorem Worked.accounted (h : Worked true id r calls) (ht : Plain id tail) :
    Handled true id (calls ++ tail) := by
  have hcosts : costCalls (calls ++ tail) = costCalls calls := by
    rw [costCalls_append, ht.costs, List.append_nil]
  have hreplies : settledReplies (calls ++ tail) = settledReplies calls := by
    rw [settledReplies_append, ht.replies, List.append_nil]
  have hparks : parkings id (calls ++ tail) = parkings id calls := by
    rw [parkings_append, ht.parks, Nat.add_zero]
  refine ⟨h.alone.append ht.alone, ?_, ?_⟩
  · rw [bookings_append_costless ht.costs, hcosts]
    exact h.booked
  · rw [hcosts, hreplies, hparks]
    rcases h.fate with ⟨-, hparked, hcharged, -, q, hq, hfee⟩ | ⟨-, hnone⟩
    · refine .inl ⟨hparked, q, hq, ?_⟩
      rw [← reportedFee_eq hfee]
      exact hcharged rfl
    · exact .inr hnone

theorem Worked.unaccounted (h : Worked false id r calls) (hfailed : r.success = false)
    (ht : Plain id tail) : Handled false id (calls ++ tail) := by
  rcases h.fate with ⟨hok, -⟩ | ⟨-, hcosts, hreplies, hparks⟩
  · rw [hfailed] at hok
    cases hok
  have hnone : costCalls (calls ++ tail) = [] := by
    rw [costCalls_append, hcosts, ht.costs, List.append_nil]
  refine ⟨h.alone.append ht.alone, ?_, .inr ⟨hnone, ?_, ?_⟩⟩
  · rw [bookings_eq_nil hnone, hnone]
    rfl
  · rw [settledReplies_append, hreplies, ht.replies, List.append_nil]
  · rw [parkings_append, ht.parks, Nat.add_zero]
    exact hparks

def SelfBooked (id feeMsat : ℤ) (calls : List EngineCall) : Prop :=
  ∃ update costs tail, calls = .updateHistorySuccess id update ::
    (costs.map .recordRebalanceCost ++ tail) ∧ Charged feeMsat costs ∧ Idle tail

theorem SelfBooked.append {feeMsat : ℤ} (h : SelfBooked id feeMsat calls)
    (ht : Idle tail) : SelfBooked id feeMsat (calls ++ tail) := by
  obtain ⟨update, costs, mine, rfl, hcharged, hi⟩ := h
  exact ⟨update, costs, mine ++ tail, by simp, hcharged, hi.append ht⟩

theorem Worked.selfBooked {close : List EngineCall} (h : Worked false id r calls)
    (hsuccess : r.success = true) (hclose : SelfBooked id (reportedFee false r) close) :
    Handled false id (calls ++ close) := by
  obtain ⟨update, costs, tail, rfl, hcharged, hi⟩ := hclose
  have htail := plain_of_idle hi id
  obtain ⟨hmine, hsilent⟩ := costs_plain costs id
  rcases h.fate with ⟨-, hparked, -, hleft, q, hq, hfee⟩ | ⟨hno, -⟩
  · have hcosts := hleft rfl
    have hall : costCalls (calls ++ .updateHistorySuccess id update ::
        (costs.map .recordRebalanceCost ++ tail)) = costs := by
      rw [costCalls_append, hcosts, List.nil_append, costCalls_cons_of_ne (by simp),
        costCalls_append, costCalls_map, htail.costs, List.append_nil]
    refine ⟨h.alone.append (List.forall_mem_cons.mpr ⟨?_, hmine.append htail.alone⟩), ?_,
      .inl ⟨?_, q, ?_, ?_⟩⟩
    · exact ⟨by simp [kind], fun i hi => hi.symm⟩
    · rw [hall]
      exact (bookings_append_success hcosts).trans (bookings_costs hcharged.length htail.costs)
    · rw [parkings_append, hparked, parkings, List.countP_cons_of_neg (by simp)]
      have hkept := htail.parks
      unfold parkings at hkept
      rw [List.countP_append, hkept]
      simp
    · rw [settledReplies_append, hq]
      have hrest : settledReplies (costs.map .recordRebalanceCost ++ tail) = [] := by
        rw [settledReplies_append, hsilent, htail.replies, List.append_nil]
      exact congrArg ([q] ++ ·) hrest
    · rw [hall, ← reportedFee_eq hfee]
      exact hcharged
  · rw [hsuccess] at hno
    cases hno

theorem fees_executeCandidate [UnicodeCase] (deps : EngineDeps ω) (candidate : RebalanceCandidate)
    (id : ℤ) (kw : EngineKwargs) :
    Logs .none (executeCandidate deps candidate id kw) fun r calls =>
      0 < id → Worked kw.accountCosts id r calls := by
  by_cases hpos : 0 < id
  · have hfailed : ∀ error amountSats, 0 < id →
        Worked kw.accountCosts id (failedResult error amountSats) [] := fun _ _ _ => .unpaid rfl
    refine Logs.after_silent silent_ask fun free =>
      Logs.ite (fun _ => Logs.pure (hfailed _ _)) fun _ => ?_
    rw [if_pos hpos]
    refine Logs.after_silent silent_read fun inflight => ?_
    refine Logs.ite (fun _ => Logs.pure (hfailed _ _)) fun _ => ?_
    refine Logs.ite (fun _ => Logs.pure (hfailed _ _)) fun _ => ?_
    refine Logs.ite (fun _ => Logs.pure (hfailed _ _)) fun _ => ?_
    refine Logs.ite (fun _ => Logs.pure (hfailed _ _)) fun _ => ?_
    refine Logs.after_silent (silent_routePairFresh deps _ _) fun priced => ?_
    match priced with
    | none => exact Logs.pure (hfailed _ _)
    | some (.error exc) => exact Logs.pure (hfailed _ _)
    | some (.ok route) =>
      refine Logs.ite (fun _ => Logs.pure (hfailed _ _)) fun _ => ?_
      exact (fees_executePair deps _ _ _ id).mono fun r calls h _ => h
  · exact (logs_executeCandidate deps candidate id kw).mono fun r calls _ h => absurd h hpos

end Entries

end CostHandlings
