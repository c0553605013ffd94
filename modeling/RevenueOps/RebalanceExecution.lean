import RevenueOps.RebalanceRail
import RevenueOps.RouteExecutor

/-! The submission outcomes of the rebalance owner: what one execution result is classified as, and
the settlement that the class leads to. -/
namespace RebalanceExecution

open RouteExecutor RustText RebalanceRail

inductive RebalanceSubmitOutcome where
  | cleanFailureBeforeWrite (detail : String)
  | rejected (detail : String)
  | success (feeSats feeMsat hops parts : ℤ)
  | outcomeUnknownAfterSubmit (paymentHash : Option String) (detail : String)
  deriving DecidableEq, Repr

/-- The error prefixes of the exits before any payment write. -/
def preWritePrefixes : List String :=
  [nativeRouteInvalidPrefix, nativeRouteOverBudgetPrefix, nativeInvoiceErrorPrefix]

def isPreWrite (error : String) : Bool :=
  error = dryrunGateSendpayDisabled || preWritePrefixes.any fun pre => startsWith error pre

/-- Unknown is the default, for every shape that nothing proves. -/
def classifyExecution (result : ExecutionResult) : RebalanceSubmitOutcome :=
  if result.success then .success result.feeSats result.feeMsat result.hops result.parts
  else if result.paymentPending then
    .outcomeUnknownAfterSubmit result.paymentHash
      (result.error.getD "payment pending with no error detail")
  else
    match result.error with
    | some error =>
      if isPreWrite error then .cleanFailureBeforeWrite error
      else if startsWith error nativeSendpayErrorPrefix then .rejected error
      else .outcomeUnknownAfterSubmit result.paymentHash
        ("unrecognized failure shape (fail-closed): " ++ error)
    | none => .outcomeUnknownAfterSubmit result.paymentHash
        "no success, no pending, no error: unclassifiable result (fail-closed)"

/-- A success settles, a rejection and a clean failure release, and what is unknown is held. -/
def settlementFor (outcome : RebalanceSubmitOutcome) (requestId : String) (resolvedAt : ℤ) :
    RebalanceSettle :=
  match outcome with
  | .success feeSats _ _ _ =>
    { requestId := requestId
      outcome := .success
      outcomeDetail := none
      feePaidSats := some feeSats
      paymentHash := none
      reservationStatus := .settled
      resolvedAt := resolvedAt }
  | .rejected detail =>
    { requestId := requestId
      outcome := .rejected
      outcomeDetail := some detail
      feePaidSats := none
      paymentHash := none
      reservationStatus := .released
      resolvedAt := resolvedAt }
  | .cleanFailureBeforeWrite detail =>
    { requestId := requestId
      outcome := .cleanFailureBeforeWrite
      outcomeDetail := some detail
      feePaidSats := none
      paymentHash := none
      reservationStatus := .released
      resolvedAt := resolvedAt }
  | .outcomeUnknownAfterSubmit paymentHash detail =>
    { requestId := requestId
      outcome := .outcomeUnknown
      outcomeDetail := some detail
      feePaidSats := none
      paymentHash := paymentHash
      reservationStatus := .quarantined
      resolvedAt := resolvedAt }

inductive SubmitClass where
  | clean
  | rejected
  | success
  | unknown
  deriving DecidableEq, Repr

def RebalanceSubmitOutcome.cls : RebalanceSubmitOutcome → SubmitClass
  | cleanFailureBeforeWrite _ => .clean
  | rejected _ => .rejected
  | success .. => .success
  | outcomeUnknownAfterSubmit .. => .unknown

variable {result : ExecutionResult}

theorem classify_success (h : result.success = true) :
    (classifyExecution result).cls = .success := by
  unfold classifyExecution
  rw [if_pos h]
  rfl

theorem classify_pending (hs : result.success = false) (hp : result.paymentPending = true) :
    (classifyExecution result).cls = .unknown := by
  unfold classifyExecution
  rw [if_neg (by simp [hs]), if_pos hp]
  rfl

/-- Without success and without a pending payment only the error text decides. -/
theorem classify_failed (hs : result.success = false) (hp : result.paymentPending = false)
    {error : String} (he : result.error = some error) : (classifyExecution result).cls =
      if isPreWrite error then .clean
      else if startsWith error nativeSendpayErrorPrefix then .rejected else .unknown := by
  unfold classifyExecution
  rw [if_neg (by simp [hs]), if_neg (by simp [hp]), he]
  dsimp only
  split
  · rfl
  · split <;> rfl

theorem startsWith_iff {s pat : String} : startsWith s pat = true ↔ pat.toList <+: s.toList := by
  unfold startsWith
  exact List.isPrefixOf_iff_prefix

theorem startsWith_append (pre rest : String) : startsWith (pre ++ rest) pre = true := by
  rw [startsWith_iff, String.toList_append]
  exact List.prefix_append _ _

/-- A longer text still starts with what the shorter one starts with. -/
theorem startsWith_extend {s pat : String} (h : startsWith s pat = true) (rest : String) :
    startsWith (s ++ rest) pat = true := by
  rw [startsWith_iff] at h ⊢
  rw [String.toList_append]
  exact h.trans (List.prefix_append _ _)

theorem not_startsWith {s p q : String} (hp : startsWith s p = true)
    (hpq : ¬ p.toList <+: q.toList) (hqp : ¬ q.toList <+: p.toList) : startsWith s q = false := by
  by_contra h
  rw [Bool.not_eq_false, startsWith_iff] at h
  rw [startsWith_iff] at hp
  rcases List.prefix_or_prefix_of_prefix hp h with h | h
  · exact hpq h
  · exact hqp h

theorem clean_of_label {error pre : String} (hpre : pre ∈ preWritePrefixes)
    (h : startsWith error pre = true) : isPreWrite error = true := by
  unfold isPreWrite
  rw [Bool.or_eq_true]
  exact .inr (List.any_eq_true.mpr ⟨pre, hpre, h⟩)

/-- The text of a failed payment attempt is not that of an exit before the write. -/
theorem sendpay_not_preWrite {error : String}
    (h : startsWith error nativeSendpayErrorPrefix = true) : isPreWrite error = false := by
  have hnone : ∀ pre ∈ preWritePrefixes, startsWith error pre = false := by
    intro pre hpre
    refine not_startsWith h ?_ ?_
    · revert pre
      decide
    · revert pre
      decide
  have hgate : error ≠ dryrunGateSendpayDisabled := by
    rintro rfl
    revert h
    decide
  simp only [isPreWrite, Bool.or_eq_false_iff, decide_eq_false_iff_not, List.any_eq_false]
  exact ⟨hgate, fun pre hpre => by simp [hnone pre hpre]⟩

end RebalanceExecution
