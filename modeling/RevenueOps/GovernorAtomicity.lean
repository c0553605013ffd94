import RevenueOps.Governor

/-! When a refused authorization leaves something behind.
The call takes its slot first, then the hold, then writes the ledger, and undoes none of them,
so the law holds exactly on the inputs that fail before the first effect. -/
namespace Governor

open FallibleState EconIntents EconLedger IntentRegistry KeyedTable

variable {ω : Type}

/-- Reservation ids granted and not released by a list of delegate calls. -/
def heldAfter (calls : List SpendCall) : List String :=
  calls.foldl (fun held c => match c with
    | .reserved rid _ granted => if granted then rid :: held else held
    | .released rid => held.filter (· ≠ rid)) []

def Granted (r : Outcome EconError GovernorDecision) : Prop :=
  ∃ d, r = .ok d ∧ d.authorized = true

/-- The active set is the one before the call less the expired entries, and nothing that the
call reserved is still held. -/
def Undone (now : ℤ) (s t : GovernorState ω) : Prop :=
  (∀ a, s.registry = some a → ∃ b, t.registry = some b ∧
    SameActive (prune b now) (prune a now)) ∧
  heldAfter (t.calls.drop s.calls.length) = []

def AuthorizeAtomic (g : GovernorFacade ω) (env : IntentEnvelope) (now : ℤ)
    (reservationId : Option String) (s : GovernorState ω) : Prop :=
  let r := authorize g env now reservationId s
  ¬Granted r.1 → Undone now s r.2

/-- A step fails after the slot was taken in an attached registry, or after the hold. -/
def FailsAfterEffect (g : GovernorFacade ω) (env : IntentEnvelope) (now : ℤ)
    (reservationId : Option String) (s : GovernorState ω) : Prop :=
  let sats := env.maxCostMsat.toSatsCeil
  let rid := effectiveReservationId env reservationId
  let reply := (reserveReply g env reservationId s).1
  GatesOpen g env now s ∧ NoConflict g env now s ∧
    ((0 < sats ∧ reply ≠ .ok true ∧ s.registry ≠ none) ∨
      (0 < sats ∧ reply = .ok true ∧ RecordFails env rid now s.ledger) ∨
      (sats = 0 ∧ RecordFails env rid now s.ledger ∧ s.registry ≠ none))

theorem not_granted {r : Outcome EconError GovernorDecision} (h : NotAuthorized r) :
    ¬Granted r := by
  rintro ⟨d, rfl, hd⟩
  rcases h with ⟨code, h⟩ | ⟨e, h⟩
  · obtain rfl := Outcome.ok.inj h
    simp [refused] at hd
  · simp at h

theorem undone_self (now : ℤ) (s : GovernorState ω) : Undone now s s := by
  refine ⟨fun a ha => ⟨a, ha, fun _ => rfl⟩, ?_⟩
  simp [heldAfter]

theorem not_undone_of_registered {g : GovernorFacade ω} {env : IntentEnvelope} {now : ℤ}
    {s t : GovernorState ω} (hopen : GatesOpen g env now s) (hfree : NoConflict g env now s)
    (ht : t.registry = registered env now s) (hr : s.registry ≠ none) : ¬Undone now s t := by
  intro h
  obtain ⟨a, ha⟩ := Option.ne_none_iff_exists'.mp hr
  obtain ⟨b, hb, hsame⟩ := h.1 a ha
  obtain rfl : b = (prune a now).insertOrReplace env := by
    have : some b = some ((prune a now).insertOrReplace env) := by
      rw [← hb, ht, registered, ha]
      rfl
    exact Option.some.inj this
  have hnone := find_of_no_conflict (hfree a ha)
  exact registered_differs hnone hopen.live hsame

theorem undone_without_registry {now : ℤ} {s t : GovernorState ω} (hr : s.registry = none)
    (hcalls : heldAfter (t.calls.drop s.calls.length) = []) : Undone now s t :=
  ⟨fun a ha => by simp [hr] at ha, hcalls⟩

private theorem atomic_recorded {g : GovernorFacade ω} {env : IntentEnvelope} {now : ℤ}
    {reservationId : Option String} {s t u : GovernorState ω}
    {r : Outcome EconError GovernorDecision} (hopen : GatesOpen g env now s)
    (hfree : NoConflict g env now s) (ht : Held g env now reservationId s t)
    (he : RecordEffect env (effectiveReservationId env reservationId) now t r u) :
    (¬Granted r → Undone now s u) ↔ ¬FailsAfterEffect g env now reservationId s := by
  have hledger : t.ledger = s.ledger := by
    rcases ht with ⟨-, w, -, rfl⟩ | ⟨-, rfl⟩ <;> rfl
  cases he with
  | failed e l hfails =>
    rw [hledger] at hfails
    have hng : ¬Granted (.err e : Outcome EconError GovernorDecision) :=
      not_granted (Or.inr ⟨e, rfl⟩)
    rcases ht with ⟨hpos, w, hreply, rfl⟩ | ⟨hzero, rfl⟩
    · have hfail : FailsAfterEffect g env now reservationId s :=
        ⟨hopen, hfree, Or.inr (Or.inl ⟨hpos, by rw [hreply], hfails⟩)⟩
      have hheld : ¬Undone now s { s with
          registry := registered env now s
          world := w
          ledger := l
          calls := s.calls ++ [.reserved (effectiveReservationId env reservationId)
            env.maxCostMsat.toSatsCeil true] } := by
        intro h
        have := h.2
        simp [heldAfter] at this
      exact iff_of_false (fun h => hheld (h hng)) (not_not.mpr hfail)
    · by_cases hr : s.registry = none
      · refine iff_of_true (fun _ => undone_without_registry hr (by simp [heldAfter])) ?_
        rintro ⟨-, -, ⟨h, -⟩ | ⟨h, -⟩ | ⟨-, -, h⟩⟩
        · omega
        · omega
        · exact h hr
      · refine iff_of_false (fun h => ?_)
          (not_not.mpr ⟨hopen, hfree, Or.inr (Or.inr ⟨hzero, hfails, hr⟩)⟩)
        exact not_undone_of_registered hopen hfree rfl hr (h hng)
  | granted l hok hrec =>
    rw [hledger] at hok
    refine iff_of_true (fun h => absurd ⟨_, rfl, rfl⟩ h) ?_
    rcases ht with ⟨hpos, w, hreply, rfl⟩ | ⟨hzero, rfl⟩
    · rintro ⟨-, -, ⟨-, h, -⟩ | ⟨-, -, h⟩ | ⟨h, -⟩⟩
      · exact h (by rw [hreply])
      · exact hok h
      · omega
    · rintro ⟨-, -, ⟨h, -⟩ | ⟨-, -, h⟩ | ⟨-, h, -⟩⟩
      · omega
      · exact hok h
      · exact hok h

/-- An authorize call is atomic exactly when no step fails after an effect. -/
theorem authorize_atomic_iff (g : GovernorFacade ω) (env : IntentEnvelope) (now : ℤ)
    (reservationId : Option String) (s : GovernorState ω) :
    AuthorizeAtomic g env now reservationId s ↔ ¬FailsAfterEffect g env now reservationId s := by
  have he := authorize_effect g env now reservationId s
  change (¬Granted (authorize g env now reservationId s).1 →
    Undone now s (authorize g env now reservationId s).2) ↔ _
  generalize (authorize g env now reservationId s).1 = r at he ⊢
  generalize (authorize g env now reservationId s).2 = t at he ⊢
  cases he with
  | gated r hclosed hna => exact iff_of_true (fun _ => undone_self now s) fun h => hclosed h.1
  | conflict code a l hopen hr hc hn =>
    refine iff_of_true (fun _ => ⟨fun b hb => ?_, by simp [heldAfter]⟩) fun h => ?_
    · obtain rfl := Option.some.inj (hr.symm.trans hb)
      exact ⟨_, rfl, prune_prune a now⟩
    · have := h.2.1 a hr
      rw [hc] at this
      simp at this
  | notReserved r x w hopen hfree hpos hreply hx =>
    by_cases hr : s.registry = none
    · refine iff_of_true (fun _ => undone_without_registry hr (by simp [heldAfter])) ?_
      rintro ⟨-, -, ⟨-, -, h⟩ | ⟨-, h, -⟩ | ⟨h, -⟩⟩
      · exact h hr
      · exact hx.ne (by rw [← h, hreply])
      · omega
    · refine iff_of_false (fun h => ?_) (not_not.mpr ⟨hopen, hfree, Or.inl ⟨hpos, ?_, hr⟩⟩)
      · exact not_undone_of_registered hopen hfree rfl hr (h (not_granted hx.not_authorized))
      · rw [hreply]
        exact hx.ne
  | recorded r t u hopen hfree hheld hrec => exact atomic_recorded hopen hfree hheld hrec

section Refusal

def refusingFacade : GovernorFacade Unit where
  reserveSpend := fun _ _ _ w => (.ok false, w)
  releaseSpend := fun _ w => (.ok false, w)
  isPaused := fun _ => false
  authorityCheck := none
  extendedRulesProvider := none

def sampleEnvelope (key : String) (expiresAt : UnixTime) : IntentEnvelope where
  intentId := ⟨"int-1", by decide⟩
  intentType := .rebalance
  idempotencyKey := key
  snapshotId := "snapshot"
  expiresAt := expiresAt
  target := "1x1x1"
  maxCostMsat := ⟨1000, by decide, by decide⟩
  budgetBucket := "rebalance"

def emptyGovernor : GovernorState Unit := ⟨(), some .empty, none, []⟩

/-- A refused reservation keeps the slot, and the next attempt is answered as superseded. -/
theorem refusal_keeps_slot :
    let env := sampleEnvelope "key" ⟨100, by decide, by decide⟩
    let first := authorize refusingFacade env 10 none emptyGovernor
    first.1 = .ok (refused .budgetExhausted) ∧
      (authorize refusingFacade env 11 none first.2).1 = .ok (refused .intentSuperseded) ∧
      ¬AuthorizeAtomic refusingFacade env 10 none emptyGovernor := by
  refine ⟨by decide, by decide, fun h => ?_⟩
  have hrefused : (authorize refusingFacade (sampleEnvelope "key" ⟨100, by decide, by decide⟩) 10
      none emptyGovernor).1 = .ok (refused .budgetExhausted) := by decide
  have hundone := h (not_granted (Or.inl ⟨_, hrefused⟩))
  have hopen : GatesOpen refusingFacade (sampleEnvelope "key" ⟨100, by decide, by decide⟩) 10
      emptyGovernor := ⟨rfl, rfl, by decide, by decide⟩
  have hfree : NoConflict refusingFacade (sampleEnvelope "key" ⟨100, by decide, by decide⟩) 10
      emptyGovernor := by
    rintro a ⟨rfl⟩
    decide
  exact not_undone_of_registered hopen hfree rfl (by simp [emptyGovernor]) hundone

end Refusal

end Governor
