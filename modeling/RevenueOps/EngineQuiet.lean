import RevenueOps.OutputLogic
import RevenueOps.RebalanceEngine

/-! An output behind the seams of the engine, which only the router and the executor write to. Every
other step of an execution leaves it as it is. -/
namespace EngineQuiet

open FallibleState JsonValue OutputLogic RebalanceEngine
open RouteExecutor (ExecutionResult)
open BudgetRail (ReserveRequest)

variable {ω β : Type}

/-- The seams that do not write. A row of a shock may leave its mark when it is inserted. -/
structure QuietSeams (view : EngineState ω → List β) (kind : β → Prop) (deps : EngineDeps ω) :
    Prop where
  policy : ∀ getPolicy, deps.policy = some getPolicy → ∀ peerId,
    Quiet view kind (ask (getPolicy peerId))
  now : Quiet view kind (ask deps.now)
  getinfoId : Quiet view kind (ask deps.getinfoId)
  hasObservations : ∀ now, Quiet view kind (ask (deps.hasObservations now))
  insert : ∀ row, row.rebalanceType ≠ "diagnostic" →
    Quiet view kind (askLogged (deps.insertOrAdoptHistory row) (.insertOrAdoptHistory row))
  reserveBudget : ∀ req, Quiet view kind (askLogged (deps.reserveBudget req) (.reserveBudget req))
  tell : ∀ call, Quiet view kind (tell deps call)
  cells : ∀ s t : EngineState ω, t.world = s.world → view t = view s

/-- The results of an execution whose budget was not reserved. -/
inductive NotReserved : ExecutionResult → Prop where
  | zeroBudget (amountSats : ℤ) :
      NotReserved (failedResult zeroBudgetBlocksAutoRebalance amountSats)
  | blocked (effectiveBudget amountSats : ℤ) (block : BudgetBlock) :
      NotReserved (blockedResult effectiveBudget amountSats block)

namespace QuietSeams

variable {view : EngineState ω → List β} {kind : β → Prop} {deps : EngineDeps ω}
  (hq : QuietSeams view kind deps)

include hq

theorem modify {f : EngineState ω → EngineState ω} (hf : ∀ s, (f s).world = s.world) :
    Quiet view kind (Eff.modify f : Engine ω Unit) :=
  Quiet.modify fun s => hq.cells s (f s) (hf s)

theorem ensureOurId : Quiet view kind (ensureOurId deps) := by
  refine (Quiet.read _).bind fun cached => Quiet.ite (fun _ => ?_) fun _ => Quiet.pure _
  refine hq.getinfoId.bind fun reply => ?_
  cases reply with
  | error e => exact Quiet.pure _
  | ok id =>
    refine Quiet.bind (hq.modify ?_) fun _ => Quiet.pure _
    exact fun _ => rfl

theorem checkPolicies {getPolicy : String → ω → Except String PeerPolicy × ω}
    (hpolicy : deps.policy = some getPolicy) (checks : List (String × String × List String)) :
    Quiet view kind (checkPolicies getPolicy checks) := by
  induction checks with
  | nil => exact Quiet.pure _
  | cons check checks ih =>
    obtain ⟨peerId, side, forbidden⟩ := check
    refine Quiet.ite (fun _ => ih) fun _ => (hq.policy _ hpolicy peerId).bind fun reply => ?_
    cases reply with
    | error e => exact Quiet.pure _
    | ok policy =>
      exact Quiet.ite (fun _ => Quiet.pure _) fun _ => Quiet.ite (fun _ => Quiet.pure _) fun _ => ih

theorem pairPolicyAllowed (pair : PairCandidate) :
    Quiet view kind (pairPolicyAllowed deps pair) := by
  unfold RebalanceEngine.pairPolicyAllowed
  cases hpolicy : deps.policy with
  | none => exact Quiet.pure _
  | some getPolicy => exact hq.checkPolicies hpolicy _

theorem recordCost (result : ExecutionResult) (pair : PairCandidate) (amountSats : ℤ) :
    Quiet view kind (recordCost deps result pair amountSats) := by
  refine (Quiet.checked _).bind fun fromSats => Quiet.ite (fun _ => ?_) fun _ => Quiet.pure _
  refine (Quiet.checked _).bind fun costSats => ?_
  exact hq.now.bind fun now => hq.tell _

theorem recordRebalanceResult (rebalanceId : Option ℤ) (result : ExecutionResult)
    (pair : PairCandidate) (accountCosts : Bool) :
    Quiet view kind (recordRebalanceResult deps rebalanceId result pair accountCosts) := by
  cases rebalanceId with
  | none => exact Quiet.pure _
  | some id =>
    refine Quiet.ite (fun _ => ?_) fun _ => Quiet.ite (fun _ => ?_) fun _ => hq.tell _
    · refine (hq.tell _).bind fun _ => Quiet.ite (fun _ => ?_) fun _ => Quiet.pure _
      exact hq.recordCost result pair _
    · cases sweepableHash result with
      | some hash => exact hq.tell _
      | none => exact hq.tell _

theorem finishExecutionBudget (reservationId : String) (reserved : Bool)
    (result : ExecutionResult) :
    Quiet view kind (finishExecutionBudget deps reservationId reserved result) := by
  refine Quiet.ite (fun _ => Quiet.pure _) fun _ => Quiet.ite (fun _ => ?_) fun _ => ?_
  · exact Quiet.ite (fun _ => Quiet.pure _) fun _ => hq.tell _
  · exact Quiet.ite (fun _ => hq.tell _) fun _ => hq.tell _

theorem pushSegmentObservationSnapshot :
    Quiet view kind (pushSegmentObservationSnapshot deps) := by
  refine hq.ensureOurId.bind fun observer => Quiet.ite (fun _ => Quiet.pure _) fun _ => ?_
  refine hq.now.bind fun now => (hq.hasObservations _).bind fun any => ?_
  exact Quiet.ite (fun _ => hq.tell _) fun _ => Quiet.pure _

theorem historyId (pair : PairCandidate) (rebalanceId : Option ℤ) :
    Quiet view kind (historyId deps pair rebalanceId) := by
  cases rebalanceId with
  | some id => exact Quiet.pure _
  | none => exact (hq.insert _ (by simp)).bind fun id => Quiet.pure _

theorem reservationIdOf (pair : PairCandidate) (rebalanceId : Option ℤ) :
    Quiet view kind (reservationIdOf pair rebalanceId : Engine ω String) := by
  cases rebalanceId with
  | some id => exact Quiet.pure _
  | none =>
    refine (Quiet.read _).bind fun nonce => Quiet.bind (hq.modify ?_) fun _ => Quiet.pure _
    exact fun _ => rfl

theorem registerInflight (dest : String) :
    Quiet view kind (registerInflight dest : Engine ω Unit) := by
  refine hq.modify fun s => ?_
  by_cases h : dest = ""
  · rw [if_pos h]
  · rw [if_neg h]

theorem unregisterInflight (dest : String) :
    Quiet view kind (unregisterInflight dest : Engine ω Unit) := hq.modify fun _ => rfl

/-- A reservation writes nothing, and what blocks it is a result of its own. -/
theorem reserveExecutionBudget (pair : PairCandidate) (reservationId : String) :
    Adds view kind (reserveExecutionBudget deps pair reservationId)
      (Returning fun out new => new = [] ∧ ∀ r, out.2 = some r → NotReserved r) := by
  have hopen : ∀ (reserved : Bool) r, (reserved, (none : Option ExecutionResult)).2 = some r →
      NotReserved r := by
    rintro reserved r ⟨⟩
  refine Adds.ite (fun _ => ?_) fun _ => Adds.ite (fun _ => Adds.pure ⟨rfl, hopen _⟩) fun _ => ?_
  · refine Adds.ite (fun _ => Adds.pure ⟨rfl, hopen _⟩) fun _ => Adds.pure ⟨rfl, ?_⟩
    rintro r ⟨⟩
    exact .zeroBudget _
  refine Adds.afterQuiet hq.now fun now => Adds.after_checked fun window _ => ?_
  refine Adds.after_checked fun since _ => Adds.after_checked fun weekly _ => ?_
  refine Adds.afterQuiet (hq.reserveBudget _) fun block => ?_
  cases block with
  | none => exact Adds.pure ⟨rfl, hopen _⟩
  | some block =>
    refine Adds.pure ⟨rfl, ?_⟩
    rintro r ⟨⟩
    exact .blocked _ _ block

end QuietSeams

end EngineQuiet
