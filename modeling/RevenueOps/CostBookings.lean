import RevenueOps.HeldReservations
import RevenueOps.ManualRebalance
import Mathlib.Algebra.Order.Floor.Ring
import Mathlib.Data.Rat.Floor

/-! Settled fees in the cost table: which row a cost belongs to, and what an execution books for
the payment that its replies report. -/
namespace CostBookings

open FallibleState JsonValue RustNumber RustText RouteExecutor RebalanceEngine RebalanceFacade
open EngineAttempts EngineTrail HeldReservations

variable {ω : Type}

section Log

/-- The costs with their rows: a cost belongs to the row that the call right before it marked
settled. `settled` is that row for the first call. -/
def bookings (settled : Option ℤ) : List EngineCall → List (ℤ × RebalanceCost)
  | [] => []
  | .recordRebalanceCost cost :: calls =>
    (settled.map fun id => (id, cost)).toList ++ bookings none calls
  | .updateHistorySuccess id _ :: calls => bookings (some id) calls
  | _ :: calls => bookings none calls

def costCalls (calls : List EngineCall) : List RebalanceCost :=
  calls.filterMap fun
    | .recordRebalanceCost cost => some cost
    | _ => none

def settledReplies (calls : List EngineCall) : List ExecutionResult :=
  calls.filterMap fun
    | .execute _ reply => if reply.success then some reply else none
    | _ => none

def parkings (id : ℤ) (calls : List EngineCall) : ℕ :=
  calls.countP fun
    | .updateHistoryPendingSettlement i _ _ => i = id
    | _ => false

def costsOf (id : ℤ) (log : List EngineCall) : List RebalanceCost :=
  ((bookings none log).filter fun booking => booking.1 = id).map Prod.snd

variable {settled : Option ℤ} {id : ℤ} {cs ds : List EngineCall}

@[simp] theorem costCalls_append : costCalls (cs ++ ds) = costCalls cs ++ costCalls ds :=
  List.filterMap_append

@[simp] theorem settledReplies_append :
    settledReplies (cs ++ ds) = settledReplies cs ++ settledReplies ds := List.filterMap_append

@[simp] theorem parkings_append : parkings id (cs ++ ds) = parkings id cs + parkings id ds :=
  List.countP_append

theorem costCalls_cons_of_ne {c : EngineCall} (h : ∀ cost, c ≠ .recordRebalanceCost cost) :
    costCalls (c :: cs) = costCalls cs := by
  cases c
  case recordRebalanceCost cost => exact absurd rfl (h cost)
  all_goals rfl

theorem bookings_eq_nil (h : costCalls cs = []) : bookings settled cs = [] := by
  induction cs generalizing settled with
  | nil => rfl
  | cons c cs ih =>
    cases c
    case recordRebalanceCost cost => cases h
    all_goals exact ih h

theorem bookings_append_costless (h : costCalls ds = []) :
    bookings settled (cs ++ ds) = bookings settled cs := by
  induction cs generalizing settled with
  | nil => exact bookings_eq_nil h
  | cons c cs ih =>
    cases c
    case recordRebalanceCost cost => exact congrArg (_ ++ ·) ih
    all_goals exact ih

theorem bookings_append_success (h : costCalls cs = []) {u : HistorySuccess} :
    bookings settled (cs ++ .updateHistorySuccess id u :: ds) = bookings (some id) ds := by
  induction cs generalizing settled with
  | nil => rfl
  | cons c cs ih =>
    cases c
    case recordRebalanceCost cost => cases h
    all_goals exact ih h

theorem bookings_costs {costs : List RebalanceCost} (hone : costs.length ≤ 1)
    (h : costCalls ds = []) :
    bookings (some id) (costs.map .recordRebalanceCost ++ ds) = costs.map (Prod.mk id) := by
  match costs with
  | [] => exact bookings_eq_nil h
  | [cost] => simp [bookings, bookings_eq_nil h]
  | _ :: _ :: _ => simp at hone

theorem bookings_append_cons {c : EngineCall} (hc : ∀ cost, c ≠ .recordRebalanceCost cost) :
    bookings settled (cs ++ c :: ds) = bookings settled cs ++ bookings none (c :: ds) := by
  induction cs generalizing settled with
  | nil =>
    cases c
    case recordRebalanceCost cost => exact absurd rfl (hc cost)
    all_goals rfl
  | cons d cs ih =>
    cases d
    case recordRebalanceCost cost => simp [bookings, ih]
    all_goals exact ih

/-- What follows by itself, when it does not begin with a cost. -/
theorem bookings_append (h : ∀ cost, ds.head? ≠ some (.recordRebalanceCost cost)) :
    bookings settled (cs ++ ds) = bookings settled cs ++ bookings none ds := by
  cases ds with
  | nil => simp [bookings]
  | cons d ds => exact bookings_append_cons fun cost hd => h cost (congrArg some hd)

theorem filter_row_self (costs : List RebalanceCost) (id : ℤ) :
    ((costs.map (Prod.mk id)).filter fun booking => booking.1 = id).map Prod.snd = costs := by
  rw [List.filter_eq_self.mpr]
  · rw [List.map_map]
    exact List.map_id costs
  · intro booking hmem
    obtain ⟨cost, -, rfl⟩ := List.mem_map.mp hmem
    exact decide_eq_true rfl

theorem filter_row_other {i : ℤ} (costs : List RebalanceCost) (h : i ≠ id) :
    ((costs.map (Prod.mk i)).filter fun booking => booking.1 = id).map Prod.snd = [] := by
  rw [List.filter_eq_nil_iff.mpr]
  · rfl
  · intro booking hmem
    obtain ⟨cost, -, rfl⟩ := List.mem_map.mp hmem
    simpa using h

end Log

section Idle

def isIdle : EngineCall → Bool
  | .insertOrAdoptHistory _ _ => false
  | .updateHistory _ _ _ => false
  | .updateHistorySuccess _ _ => false
  | .updateHistoryPendingSettlement _ _ _ => false
  | .execute _ _ => false
  | .recordRebalanceCost _ => false
  | _ => true

def Idle (calls : List EngineCall) : Prop := ∀ c ∈ calls, isIdle c = true

def Alone (id : ℤ) (calls : List EngineCall) : Prop :=
  ∀ c ∈ calls, kind c ≠ .insertion ∧ ∀ i, WritesRow i c → i = id

variable {id : ℤ} {cs ds : List EngineCall}

theorem Alone.append (h : Alone id cs) (k : Alone id ds) : Alone id (cs ++ ds) :=
  List.forall_mem_append.mpr ⟨h, k⟩

theorem Idle.append (h : Idle cs) (k : Idle ds) : Idle (cs ++ ds) :=
  List.forall_mem_append.mpr ⟨h, k⟩

theorem Idle.nil : Idle [] := List.forall_mem_nil _

theorem Idle.alone (h : Idle cs) (id : ℤ) : Alone id cs := by
  intro c hc
  have hidle := h c hc
  cases c
  case insertOrAdoptHistory => cases hidle
  case updateHistory => cases hidle
  case updateHistorySuccess => cases hidle
  case updateHistoryPendingSettlement => cases hidle
  all_goals exact ⟨nofun, fun _ hwrites => hwrites.elim⟩

theorem Idle.costCalls (h : Idle cs) : costCalls cs = [] := by
  refine List.filterMap_eq_nil_iff.mpr fun c hc => ?_
  have hidle := h c hc
  cases c
  case recordRebalanceCost => cases hidle
  all_goals rfl

theorem Idle.settledReplies (h : Idle cs) : settledReplies cs = [] := by
  refine List.filterMap_eq_nil_iff.mpr fun c hc => ?_
  have hidle := h c hc
  cases c
  case execute => cases hidle
  all_goals rfl

theorem Idle.parkings (h : Idle cs) (id : ℤ) : parkings id cs = 0 := by
  refine List.countP_eq_zero.mpr fun c hc => ?_
  have hidle := h c hc
  cases c
  case updateHistoryPendingSettlement => cases hidle
  all_goals exact nofun

theorem bookings_idle_append (h : Idle cs) : bookings none (cs ++ ds) = bookings none ds := by
  induction cs with
  | nil => rfl
  | cons c cs ih =>
    have hc := h c List.mem_cons_self
    have hrest := ih fun d hd => h d (List.mem_cons_of_mem _ hd)
    cases c
    case updateHistorySuccess => cases hc
    case recordRebalanceCost => cases hc
    all_goals exact hrest

theorem idle_of_kinds (h : OfKind [.reservation, .closing] cs) : Idle cs := by
  intro c hc
  have hkind := h c hc
  cases c
  case insertOrAdoptHistory | updateHistory | updateHistorySuccess |
      updateHistoryPendingSettlement | execute | recordRebalanceCost => simp [kind] at hkind
  all_goals rfl

theorem idle_tell {b : Bounds} {deps : EngineDeps ω} {call : EngineCall} (hb : b.Allows call)
    (h : isIdle call = true) : Logs b (tell deps call) fun _ calls => Idle calls := by
  refine Logs.mono (logs_tell hb) ?_
  rintro _ calls rfl
  exact List.forall_mem_singleton.mpr h

theorem idle_pushSegmentObservationSnapshot {b : Bounds} (deps : EngineDeps ω) :
    Logs b (pushSegmentObservationSnapshot deps) fun _ calls => Idle calls := by
  refine Logs.after_silent (silent_ensureOurId deps) fun observer => ?_
  refine Logs.ite (fun _ => Logs.pure Idle.nil) fun _ => ?_
  refine Logs.after_silent silent_ask fun now => Logs.after_silent silent_ask fun some? => ?_
  exact Logs.ite (fun _ => idle_tell trivial rfl) fun _ => Logs.pure Idle.nil

end Idle

section Attempts

structure SameFee (r q : ExecutionResult) : Prop where
  success : r.success = q.success
  msat : r.feeMsat = q.feeMsat
  sats : r.feeSats = q.feeSats

theorem SameFee.refl (r : ExecutionResult) : SameFee r r := ⟨rfl, rfl, rfl⟩

/-- Attempts and their result: a success has the fee of the one settled reply. -/
structure Attempted (r : ExecutionResult) (calls : List EngineCall) : Prop where
  kinds : OfKind [.attempt] calls
  fee : (r.success = true ∧ ∃ q, settledReplies calls = [q] ∧ SameFee r q) ∨
    (r.success = false ∧ settledReplies calls = [])

variable {r first : ExecutionResult} {cs ds : List EngineCall}

theorem Attempted.same (h : Attempted first cs) (hs : SameFee r first) : Attempted r cs := by
  refine ⟨h.kinds, ?_⟩
  rcases h.fee with ⟨hok, q, hq, hfee⟩ | ⟨hno, hnone⟩
  · refine .inl ⟨hs.success.trans hok, q, hq, ?_⟩
    exact ⟨hs.success.trans hfee.success, hs.msat.trans hfee.msat, hs.sats.trans hfee.sats⟩
  · exact .inr ⟨hs.success.trans hno, hnone⟩

theorem Attempted.retried (h : Attempted first cs) (hf : first.success = false)
    (k : Attempted r ds) : Attempted r (cs ++ ds) := by
  have hnone : settledReplies cs = [] := by
    rcases h.fee with ⟨hok, -⟩ | ⟨-, hnone⟩
    · rw [hf] at hok
      cases hok
    · exact hnone
  refine ⟨h.kinds.append k.kinds, ?_⟩
  rw [settledReplies_append, hnone, List.nil_append]
  exact k.fee

theorem Attempted.single {q : ExecutionResult} {req : ExecuteRequest} (hs : SameFee r q) :
    Attempted r [.execute req q] := by
  refine ⟨List.forall_mem_singleton.mpr (by simp [kind]), ?_⟩
  cases hq : q.success with
  | true => exact .inl ⟨hs.success.trans hq, q, by simp [settledReplies, hq], hs⟩
  | false => exact .inr ⟨hs.success.trans hq, by simp [settledReplies, hq]⟩

def Unsettled (calls : List EngineCall) : Prop :=
  OfKind [.attempt] calls ∧ settledReplies calls = []

theorem Unsettled.nil : Unsettled [] := ⟨OfKind.nil _, rfl⟩

theorem Unsettled.append (h : Unsettled cs) (k : Unsettled ds) : Unsettled (cs ++ ds) := by
  refine ⟨h.1.append k.1, ?_⟩
  rw [settledReplies_append, h.2, k.2, List.append_nil]

theorem Unsettled.then (h : Unsettled cs) (k : Attempted r ds) : Attempted r (cs ++ ds) := by
  refine ⟨h.1.append k.kinds, ?_⟩
  rw [settledReplies_append, h.2, List.nil_append]
  exact k.fee

theorem annotateRetry_fee {note : String} {data : JsonMap}
    (h : annotateRetry first note data = some r) : SameFee r first := by
  obtain ⟨attempts, -, h⟩ := Option.bind_eq_some_iff.mp h
  obtain rfl := Option.some.inj h
  exact ⟨rfl, rfl, rfl⟩

theorem mergeRetry_fee {retry : ExecutionResult} {exclusions : List String} {routeCostSats : ℤ}
    (h : mergeRetry first retry exclusions routeCostSats = some r) : SameFee r retry := by
  obtain ⟨attempts, -, h⟩ := Option.bind_eq_some_iff.mp h
  obtain rfl := Option.some.inj h
  exact ⟨rfl, rfl, rfl⟩

def Continues (first r : ExecutionResult) (calls : List EngineCall) : Prop :=
  ∀ before, Attempted first before → Attempted r (before ++ calls)

theorem Continues.same (hs : SameFee r first) : Continues first r [] := by
  intro before h
  rw [List.append_nil]
  exact h.same hs

theorem fees_executeRequest (deps : EngineDeps ω) (pair : PairCandidate) :
    Logs .none (executeRequest deps pair) fun q calls => ∃ req, calls = [.execute req q] :=
  logs_executeRequest deps pair trivial

theorem fees_retryWithExclusions (deps : EngineDeps ω) (pair : PairCandidate)
    (first : ExecutionResult) :
    Logs .none (retryWithExclusions deps pair first) fun out calls =>
      Continues first out.1 calls := by
  have hsame : Continues first first [] := .same (.refl first)
  refine Logs.ite (fun _ => Logs.pure hsame) fun hopen => ?_
  refine Logs.ite (fun _ => Logs.pure hsame) fun _ => ?_
  refine Logs.after_silent (silent_routePairFresh deps pair _) fun priced => ?_
  match priced with
  | none => exact Logs.pure hsame
  | some (.error exc) =>
    exact Logs.after_checked fun r hr => Logs.pure (.same (annotateRetry_fee hr))
  | some (.ok route) =>
    refine Logs.ite (fun _ => ?_) fun _ => Logs.after_checked fun budget _ => ?_
    · exact Logs.after_checked fun r hr => Logs.pure (.same (annotateRetry_fee hr))
    refine Logs.ite (fun _ => ?_) fun _ => ?_
    · exact Logs.after_checked fun r hr => Logs.pure (.same (annotateRetry_fee hr))
    refine Logs.bind (fees_executeRequest deps _) ?_
    rintro retry calls ⟨req, rfl⟩
    refine Logs.after_checked fun r hr => Logs.pure fun before h => ?_
    have hfailed : first.success = false := by
      rw [not_or] at hopen
      simpa using hopen.1
    rw [List.append_nil]
    exact h.retried hfailed (.single (mergeRetry_fee hr))

def RungFees : LadderStep → List EngineCall → Prop
  | .unavailable, calls => Unsettled calls
  | .failed _ _ _, calls => Unsettled calls
  | .finished r _, calls => Attempted r calls

def LadderFees : LadderOutcome → List EngineCall → Prop
  | .exhausted _ _, calls => Unsettled calls
  | .finished r _, calls => Attempted r calls

theorem judgeRung_fees (req : ExecuteRequest) (prior retry : ExecutionResult)
    (originalAmount amountSats routeCostSats : ℤ) (partialAttempts : List Json)
    (totalAttempts : ℤ) (pair : PairCandidate) :
    RungFees (judgeRung prior retry originalAmount amountSats routeCostSats partialAttempts
      totalAttempts pair) [.execute req retry] := by
  unfold judgeRung
  by_cases hsuccess : retry.success = true
  · rw [if_pos hsuccess]
    exact Attempted.single ⟨rfl, rfl, rfl⟩
  · rw [if_neg hsuccess]
    by_cases hpending : retry.paymentPending = true
    · rw [if_pos hpending]
      exact Attempted.single ⟨rfl, rfl, rfl⟩
    · rw [if_neg hpending]
      exact ⟨List.forall_mem_singleton.mpr (by simp [kind]), by simp [settledReplies, hsuccess]⟩

theorem fees_ladderRung (deps : EngineDeps ω) (prior : ExecutionResult)
    (originalAmount originalBudget amountSats : ℤ) (partialAttempts : List Json)
    (totalAttempts : ℤ) (pair : PairCandidate) :
    Logs .none (ladderRung deps prior originalAmount originalBudget amountSats partialAttempts
      totalAttempts pair) RungFees := by
  refine Logs.after_silent (silent_routePairFresh deps _ _) fun priced => ?_
  match priced with
  | none => exact Logs.pure Unsettled.nil
  | some (.error exc) => exact Logs.pure Unsettled.nil
  | some (.ok route) =>
    refine Logs.ite (fun _ => Logs.pure Unsettled.nil) fun _ =>
      Logs.after_checked fun budget _ => ?_
    refine Logs.ite (fun _ => Logs.pure Unsettled.nil) fun _ => ?_
    refine Logs.bind (fees_executeRequest deps _) ?_
    rintro retry calls ⟨req, rfl⟩
    exact Logs.after_checked fun total _ => Logs.pure (judgeRung_fees req ..)

theorem fees_ladder (deps : EngineDeps ω) (prior : ExecutionResult)
    (originalAmount originalBudget : ℤ) (amounts : List ℤ) (partialAttempts : List Json)
    (totalAttempts : ℤ) (pair : PairCandidate) :
    Logs .none (ladder deps prior originalAmount originalBudget amounts partialAttempts
      totalAttempts pair) LadderFees := by
  induction amounts generalizing partialAttempts totalAttempts pair with
  | nil => exact Logs.pure Unsettled.nil
  | cons amountSats amounts ih =>
    refine Logs.bind (fees_ladderRung deps prior _ _ amountSats _ _ pair) fun step calls hstep => ?_
    cases step with
    | unavailable =>
      refine Logs.pure ?_
      rw [List.append_nil]
      exact hstep
    | finished r p =>
      refine Logs.pure ?_
      rw [List.append_nil]
      exact hstep
    | failed p attempt total =>
      refine (ih _ total p).mono fun out more hout => ?_
      cases out with
      | exhausted attempts total => exact Unsettled.append hstep hout
      | finished r p => exact Unsettled.then hstep hout

theorem fees_retryWithPartialAmounts [UnicodeCase] (deps : EngineDeps ω) (pair : PairCandidate)
    (prior : ExecutionResult) :
    Logs .none (retryWithPartialAmounts deps pair prior) fun out calls =>
      Continues prior out.1 calls := by
  have hsame : Continues prior prior [] := .same (.refl prior)
  refine Logs.ite (fun _ => Logs.pure hsame) fun _ => ?_
  refine Logs.ite (fun _ => Logs.pure hsame) fun hallows => ?_
  have hfailed : prior.success = false := by
    rw [Bool.not_eq_true, Bool.not_eq_false'] at hallows
    by_contra hsuccess
    rw [failureAllowsPartial, if_pos (.inl (by simpa using hsuccess))] at hallows
    cases hallows
  refine Logs.bind (fees_ladder deps prior _ _ _ _ _ _) fun out calls hout => ?_
  cases out with
  | finished r p =>
    refine Logs.pure fun before h => ?_
    rw [List.append_nil]
    exact h.retried hfailed hout
  | exhausted attempts total =>
    refine Logs.pure fun before h => ?_
    rw [List.append_nil]
    have hend : Attempted (exhaustedResult prior pair.amountSats attempts total) calls :=
      ⟨hout.1, .inr ⟨hfailed, hout.2⟩⟩
    exact h.retried hfailed hend

end Attempts

end CostBookings
