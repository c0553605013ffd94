import RevenueOps.GovernorAtomicity

/-! Slot exclusivity over runs that share one registry.
Every call may come from a facade of its own with delegates of its own; only the registry and
the clock are common. A slot is keyed by the idempotency key alone, so a token that is released
after its slot was pruned can name a slot that a newer token took. -/
namespace GovernorSlots

open FallibleState EconIntents EconLedger IntentRegistry KeyedTable Governor

structure Issued where
  token : AuthorizationToken
  env : IntentEnvelope
  released : Bool
  deriving DecidableEq

structure SlotState where
  active : Active
  clock : ℤ
  issued : List Issued

def Live (x : Issued) (now : ℤ) : Prop := x.released = false ∧ now < x.env.expiresAt.value

instance (x : Issued) (now : ℤ) : Decidable (Live x now) :=
  inferInstanceAs (Decidable (x.released = false ∧ now < x.env.expiresAt.value))

def issuedBy (env : IntentEnvelope) : Outcome EconError GovernorDecision → List Issued
  | .ok d => d.token.toList.map fun token => ⟨token, env, false⟩
  | _ => []

def afterAuthorize {ω : Type} (p : SlotState) (g : GovernorFacade ω) (s : GovernorState ω)
    (env : IntentEnvelope) (now : ℤ) (reservationId : Option String) : SlotState :=
  let r := authorize g env now reservationId { s with registry := some p.active }
  ⟨r.2.registry.getD p.active, now, p.issued ++ issuedBy env r.1⟩

def afterRelease {ω : Type} (p : SlotState) (g : GovernorFacade ω) (s : GovernorState ω) (i : ℕ)
    (x : Issued) (now : ℤ) : SlotState :=
  let r := release g x.token now { s with registry := some p.active }
  ⟨r.2.registry.getD p.active, now, p.issued.set i { x with released := true }⟩

inductive SlotEvent where
  | authorize
  | release (i : ℕ) (now : ℤ)

/-- Times do not decrease and a token is released at most once, possibly after its expiry. -/
inductive SlotStep : SlotState → SlotEvent → SlotState → Prop where
  | authorize {ω : Type} (p : SlotState) (g : GovernorFacade ω) (s : GovernorState ω)
      (env : IntentEnvelope) (now : ℤ) (reservationId : Option String) : p.clock ≤ now →
      SlotStep p .authorize (afterAuthorize p g s env now reservationId)
  | release {ω : Type} (p : SlotState) (g : GovernorFacade ω) (s : GovernorState ω) (i : ℕ)
      (x : Issued) (now : ℤ) : p.clock ≤ now → p.issued[i]? = some x → x.released = false →
      SlotStep p (.release i now) (afterRelease p g s i x now)

/-- The release names no slot of another token that is unreleased and unexpired. -/
def NamesOwnSlot (p : SlotState) : SlotEvent → Prop
  | .authorize => True
  | .release i now => ∀ x, p.issued[i]? = some x → ∀ j y, j ≠ i → p.issued[j]? = some y →
    Live y now → y.token.arbitrationKey ≠ releaseKey x.token

inductive Run (p : SlotState) : SlotState → Prop where
  | refl : Run p p
  | tail {q r e} : Run p q → SlotStep q e r → Run p r

inductive CarefulRun (p : SlotState) : SlotState → Prop where
  | refl : CarefulRun p p
  | tail {q r e} : CarefulRun p q → SlotStep q e r → NamesOwnSlot q e → CarefulRun p r

def Exclusive (p : SlotState) : Prop :=
  ∀ (i j : ℕ) (x y : Issued), i ≠ j → p.issued[i]? = some x → p.issued[j]? = some y →
    Live x p.clock →
    Live y p.clock → x.token.arbitrationKey ≠ y.token.arbitrationKey

/-- Each live token's slot holds the envelope that the token was issued for. -/
def SlotsKept (p : SlotState) : Prop :=
  ∀ x ∈ p.issued, Live x p.clock → p.active.find? x.token.arbitrationKey = some x.env

structure Invariant (p : SlotState) : Prop where
  token_key : ∀ x ∈ p.issued, x.token.arbitrationKey = x.env.idempotencyKey
  slots_kept : SlotsKept p
  exclusive : Exclusive p

theorem initial_invariant (active : Active) (clock : ℤ) : Invariant ⟨active, clock, []⟩ := by
  constructor <;> simp [SlotsKept, Exclusive]

theorem live_of_later {x : Issued} {clock now : ℤ} (hle : clock ≤ now) (h : Live x now) :
    Live x clock := ⟨h.1, by have := h.2; omega⟩

/-- A set that keeps the live entries keeps the invariant when no token is issued. -/
theorem invariant_of_kept {p : SlotState} {b : Active} {now : ℤ} (h : Invariant p)
    (hle : p.clock ≤ now)
    (hkept : ∀ k env, p.active.find? k = some env → now < env.expiresAt.value →
      b.find? k = some env) : Invariant ⟨b, now, p.issued⟩ := by
  constructor
  · exact h.token_key
  · intro x hx hlive
    exact hkept _ _ (h.slots_kept x hx (live_of_later hle hlive)) hlive.2
  · intro i j x y hij hx hy hlx hly
    exact h.exclusive i j x y hij hx hy (live_of_later hle hlx) (live_of_later hle hly)

/-- A new token's key was free in the pruned set, so no live token has it. -/
theorem invariant_issue {p : SlotState} {env : IntentEnvelope} {token : AuthorizationToken}
    {now : ℤ} (h : Invariant p) (hle : p.clock ≤ now)
    (hfree : (prune p.active now).find? env.idempotencyKey = none)
    (hkey : token.arbitrationKey = env.idempotencyKey) :
    Invariant ⟨(prune p.active now).insertOrReplace env, now,
      p.issued ++ [⟨token, env, false⟩]⟩ := by
  have hslot : ∀ x ∈ p.issued, Live x now →
      (prune p.active now).find? x.token.arbitrationKey = some x.env := fun x hx hlive =>
    find_prune.mpr ⟨h.slots_kept x hx (live_of_later hle hlive), hlive.2⟩
  have hnew : ∀ x ∈ p.issued, Live x now → x.token.arbitrationKey ≠ env.idempotencyKey := by
    intro x hx hlive he
    have := hslot x hx hlive
    rw [he, hfree] at this
    simp at this
  constructor
  · intro x hx
    rcases List.mem_append.mp hx with hx | hx
    · exact h.token_key x hx
    · obtain rfl := List.mem_singleton.mp hx
      exact hkey
  · intro x hx hlive
    rcases List.mem_append.mp hx with hx | hx
    · rw [find_insertOrReplace, if_neg (hnew x hx hlive).symm]
      exact hslot x hx hlive
    · obtain rfl := List.mem_singleton.mp hx
      simp [hkey]
  · intro i j x y hij hx hy hlx hly
    simp only [List.getElem?_append] at hx hy
    split at hx
    · have hxm := List.mem_of_getElem? hx
      split at hy
      · exact h.exclusive i j x y hij hx hy (live_of_later hle hlx) (live_of_later hle hly)
      · obtain rfl := List.mem_singleton.mp (List.mem_of_getElem? hy)
        rw [hkey]
        exact hnew x hxm hlx
    · obtain rfl := List.mem_singleton.mp (List.mem_of_getElem? hx)
      split at hy
      · rw [hkey]
        exact (hnew y (List.mem_of_getElem? hy) hly).symm
      · simp only [List.getElem?_singleton] at hx hy
        split at hx <;> split at hy <;> simp_all
        omega

theorem authorize_preserves_invariant {ω : Type} {p : SlotState} (h : Invariant p)
    (g : GovernorFacade ω) (s : GovernorState ω) (env : IntentEnvelope) {now : ℤ}
    (hle : p.clock ≤ now) (reservationId : Option String) :
    Invariant (afterAuthorize p g s env now reservationId) := by
  have he := authorize_effect g env now reservationId { s with registry := some p.active }
  unfold afterAuthorize
  have hissue : ∀ {r : Outcome EconError GovernorDecision}, NotAuthorized r →
      issuedBy env r = [] := by
    rintro r (⟨code, rfl⟩ | ⟨e, rfl⟩) <;> rfl
  have hpruned : ∀ k e, p.active.find? k = some e → now < e.expiresAt.value →
      (prune p.active now).find? k = some e := fun k e hk hlive => find_prune.mpr ⟨hk, hlive⟩
  have hregister : NoConflict g env now { s with registry := some p.active } →
      ∀ k e, p.active.find? k = some e → now < e.expiresAt.value →
        ((prune p.active now).insertOrReplace env).find? k = some e := by
    intro hfree k e hk hlive
    have hne : env.idempotencyKey ≠ k := by
      rintro rfl
      have := hpruned _ e hk hlive
      rw [find_of_no_conflict (hfree _ rfl)] at this
      simp at this
    rw [find_insertOrReplace, if_neg hne]
    exact hpruned k e hk hlive
  generalize authorize g env now reservationId { s with registry := some p.active } = r at he ⊢
  obtain ⟨out, t⟩ := r
  simp only at he ⊢
  cases he with
  | gated r hclosed hna =>
    rw [hissue hna, List.append_nil]
    exact invariant_of_kept h hle fun k e hk _ => hk
  | conflict code a l hopen hr hc hn =>
    obtain rfl := Option.some.inj hr
    rw [hissue (Or.inl ⟨code, rfl⟩), List.append_nil]
    exact invariant_of_kept h hle hpruned
  | notReserved r x w hopen hfree hpos hreply hx =>
    rw [hissue hx.not_authorized, List.append_nil]
    exact invariant_of_kept h hle (hregister hfree)
  | recorded r u v hopen hfree hheld hrec =>
    have hu : u.registry = some ((prune p.active now).insertOrReplace env) := by
      rcases hheld with ⟨-, w, -, rfl⟩ | ⟨-, rfl⟩ <;> rfl
    cases hrec with
    | failed e l hfails =>
      rw [hissue (Or.inr ⟨e, rfl⟩), List.append_nil]
      simp only [hu, Option.getD_some]
      exact invariant_of_kept h hle (hregister hfree)
    | granted l hok hrecorded =>
      simp only [hu, Option.getD_some]
      exact invariant_issue h hle (find_of_no_conflict (hfree _ rfl)) rfl

theorem release_registry {ω : Type} (g : GovernorFacade ω) (token : AuthorizationToken) (now : ℤ)
    (s : GovernorState ω) :
    (release g token now s).2.registry =
      s.registry.map fun a => IntentRegistry.release a (releaseKey token) := by
  have he := release_effect g token now s
  generalize (release g token now s).1 = r at he
  generalize (release g token now s).2 = t at he
  cases he <;> rfl

theorem release_preserves_invariant {ω : Type} {p : SlotState} (h : Invariant p)
    (g : GovernorFacade ω) (s : GovernorState ω) {i : ℕ} {x : Issued} {now : ℤ}
    (hle : p.clock ≤ now) (hx : p.issued[i]? = some x)
    (hown : NamesOwnSlot p (.release i now)) : Invariant (afterRelease p g s i x now) := by
  have hreg :
      (release g x.token now { s with registry := some p.active }).2.registry.getD p.active =
      IntentRegistry.release p.active (releaseKey x.token) := by
    rw [release_registry]
    rfl
  have hold : ∀ (j : ℕ) (y : Issued), (p.issued.set i { x with released := true })[j]? = some y →
      Live y now → j ≠ i ∧ p.issued[j]? = some y := by
    intro j y hy hlive
    by_cases hj : i = j
    · subst hj
      rw [List.getElem?_set_self' ] at hy
      rw [hx] at hy
      simp only [Option.map_eq_map, Option.map_some, Option.some.injEq] at hy
      subst hy
      simp [Live] at hlive
    · rw [List.getElem?_set_ne hj] at hy
      exact ⟨Ne.symm hj, hy⟩
  unfold afterRelease
  simp only [hreg]
  constructor
  · intro y hy
    rcases List.mem_or_eq_of_mem_set hy with hy | rfl
    · exact h.token_key y hy
    · exact h.token_key x (List.mem_of_getElem? hx)
  · intro y hy hlive
    obtain ⟨j, hj⟩ := List.mem_iff_getElem?.mp hy
    obtain ⟨hji, hj⟩ := hold j y hj hlive
    refine find_release.mpr ⟨?_, hown x hx j y hji hj hlive⟩
    exact h.slots_kept y (List.mem_of_getElem? hj) (live_of_later hle hlive)
  · intro j k y z hjk hy hz hly hlz
    obtain ⟨-, hy⟩ := hold j y hy hly
    obtain ⟨-, hz⟩ := hold k z hz hlz
    exact h.exclusive j k y z hjk hy hz (live_of_later hle hly) (live_of_later hle hlz)

theorem step_preserves_invariant {p q : SlotState} {e : SlotEvent} (h : Invariant p)
    (hs : SlotStep p e q) (hown : NamesOwnSlot p e) : Invariant q := by
  cases hs with
  | authorize _ g s env now reservationId hle =>
    exact authorize_preserves_invariant h g s env hle reservationId
  | release _ g s i x now hle hx hr => exact release_preserves_invariant h g s hle hx hown

theorem reachable_invariant {p q : SlotState} (h : Invariant p) (hr : CarefulRun p q) :
    Invariant q := by
  induction hr with
  | refl => exact h
  | tail _ hs hown ih => exact step_preserves_invariant ih hs hown

/-- In time, and with a key of its own, a release cannot name a slot of another live token. -/
theorem timely_release {p : SlotState} (h : Invariant p) {i : ℕ} {x : Issued} {now : ℤ}
    (hle : p.clock ≤ now) (hx : p.issued[i]? = some x) (hlive : Live x now)
    (hkey : x.token.arbitrationKey ≠ "") : NamesOwnSlot p (.release i now) := by
  intro x' hx' j y hji hy hly
  obtain rfl := Option.some.inj (hx.symm.trans hx')
  rw [releaseKey, if_pos hkey]
  exact h.exclusive j i y x hji hy hx (live_of_later hle hly) (live_of_later hle hlive)

/-- Slot exclusivity of live arbitration, over every run whose releases name their own slot. -/
theorem live_slots_exclusive (active : Active) (clock : ℤ) {p : SlotState}
    (hr : CarefulRun ⟨active, clock, []⟩ p) : Exclusive p ∧ SlotsKept p :=
  have h := reachable_invariant (initial_invariant active clock) hr
  ⟨h.exclusive, h.slots_kept⟩

section LateRelease

def grantingFacade : GovernorFacade Unit where
  reserveSpend := fun _ _ _ w => (.ok true, w)
  releaseSpend := fun _ w => (.ok true, w)
  isPaused := fun _ => false
  authorityCheck := none
  extendedRulesProvider := none

def shortEnvelope : IntentEnvelope := sampleEnvelope "key" ⟨10, by decide, by decide⟩
def longEnvelope : IntentEnvelope :=
  sampleEnvelope "key" ⟨100, hundred_nonneg, hundred_le_u63Max⟩

def firstIssued : Issued := ⟨tokenFor shortEnvelope "key" 1000 0, shortEnvelope, false⟩
def secondIssued : Issued := ⟨tokenFor longEnvelope "key" 1000 10, longEnvelope, false⟩
def thirdIssued : Issued := ⟨tokenFor longEnvelope "key" 1000 12, longEnvelope, false⟩

def slotsInitial : SlotState := ⟨.empty, 0, []⟩
def slotsFirst : SlotState :=
  afterAuthorize slotsInitial grantingFacade emptyGovernor shortEnvelope 0 none
def slotsSecond : SlotState :=
  afterAuthorize slotsFirst grantingFacade emptyGovernor longEnvelope 10 none
def slotsFreed : SlotState :=
  afterRelease slotsSecond grantingFacade emptyGovernor 0 firstIssued 11
def slotsThird : SlotState :=
  afterAuthorize slotsFreed grantingFacade emptyGovernor longEnvelope 12 none

def slotsReleased : SlotState :=
  afterRelease slotsSecond grantingFacade emptyGovernor 1 secondIssued 12
def slotsRenewed : SlotState :=
  afterAuthorize slotsReleased grantingFacade emptyGovernor longEnvelope 12 none

theorem slotsFirst_step : SlotStep slotsInitial .authorize slotsFirst :=
  .authorize slotsInitial grantingFacade emptyGovernor shortEnvelope 0 none (by decide)

theorem slotsSecond_step : SlotStep slotsFirst .authorize slotsSecond :=
  .authorize slotsFirst grantingFacade emptyGovernor longEnvelope 10 none (by decide)

theorem slotsReleased_run : CarefulRun slotsInitial slotsReleased := by
  have hreleased : SlotStep slotsSecond (.release 1 12) slotsReleased :=
    .release slotsSecond grantingFacade emptyGovernor 1 secondIssued 12 (by decide) (by decide) rfl
  have hrun : CarefulRun slotsInitial slotsSecond :=
    .tail (.tail .refl slotsFirst_step trivial) slotsSecond_step trivial
  have hinv := reachable_invariant (initial_invariant .empty 0) hrun
  exact .tail hrun hreleased
    (timely_release hinv (by decide) (show slotsSecond.issued[1]? = some secondIssued by decide)
      (by decide) (by decide))

/-- Three tokens of one key in turn: one expires, one is released in time, one holds the slot. -/
theorem live_slots_after_timely_release :
    slotsRenewed.issued = [firstIssued, { secondIssued with released := true }, thirdIssued] ∧
      Exclusive slotsRenewed ∧ SlotsKept slotsRenewed := by
  have hthird : SlotStep slotsReleased .authorize slotsRenewed :=
    .authorize slotsReleased grantingFacade emptyGovernor longEnvelope 12 none (by decide)
  exact ⟨by decide, live_slots_exclusive .empty 0 (.tail slotsReleased_run hthird trivial)⟩

/-- The first token is released after its expiry and frees the slot of the second one. -/
theorem late_release_frees_slot : ∃ p, Run slotsInitial p ∧ ¬Exclusive p := by
  refine ⟨slotsThird, ?_, fun h => ?_⟩
  · have hfreed : SlotStep slotsSecond (.release 0 11) slotsFreed :=
      .release slotsSecond grantingFacade emptyGovernor 0 firstIssued 11 (by decide)
        (by decide) rfl
    have hthird : SlotStep slotsFreed .authorize slotsThird :=
      .authorize slotsFreed grantingFacade emptyGovernor longEnvelope 12 none (by decide)
    exact .tail (.tail (.tail (.tail .refl slotsFirst_step) slotsSecond_step) hfreed) hthird
  · have hx : slotsThird.issued[1]? = some secondIssued := by decide
    have hy : slotsThird.issued[2]? = some thirdIssued := by decide
    exact h 1 2 secondIssued thirdIssued (by decide) hx hy (by decide) (by decide) rfl

end LateRelease

end GovernorSlots
