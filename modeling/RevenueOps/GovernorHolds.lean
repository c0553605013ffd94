import RevenueOps.Governor

/-! Outstanding holds: the reservation store and the replayed ledger agree.
The proposal is ledgered under the envelope's key and the hold under the effective reservation
id; only events of the second kind move the replayed reservations. -/
namespace GovernorHolds

open FallibleState EconIntents EconLedger IntentRegistry Governor

variable {ω : Type}

/-- The delegates keep a hold per reservation id: a grant sets it, a refusal changes nothing and
a release clears it. -/
structure HoldsContract (g : GovernorFacade ω) (held : ω → String → ℤ) : Prop where
  grant : ∀ rid sats bucket w w', g.reserveSpend rid sats bucket w = (.ok true, w') →
    held w' = Function.update (held w) rid sats
  refuse : ∀ rid sats bucket w w', g.reserveSpend rid sats bucket w = (.ok false, w') →
    held w' = held w
  release : ∀ rid w b w', g.releaseSpend rid w = (.ok b, w') →
    held w' = Function.update (held w) rid 0

def Agrees (held : ω → String → ℤ) (s : GovernorState ω) : Prop :=
  ∃ l st, s.ledger = some l ∧ replay l.events = .ok st ∧ ∀ rid, st.reservedMsat[rid]? =
    if held s.world rid = 0 then none else some (1000 * held s.world rid)

inductive HoldRun (held : ω → String → ℤ) (s : GovernorState ω) : GovernorState ω → Prop where
  | refl : HoldRun held s s
  | authorize {t u : GovernorState ω} (g : GovernorFacade ω) (env : IntentEnvelope) (now : ℤ)
      (reservationId : Option String) (d : GovernorDecision) : HoldRun held s t →
      HoldsContract g held → authorize g env now reservationId t = (.ok d, u) → HoldRun held s u
  | release {t u : GovernorState ω} (g : GovernorFacade ω) (token : AuthorizationToken) (now : ℤ)
      (b : Bool) : HoldRun held s t → HoldsContract g held →
      release g token now t = (.ok b, u) → HoldRun held s u

theorem agrees_iff_books {held : ω → String → ℤ} {s : GovernorState ω} :
    Agrees held s ↔ ∃ l st, s.ledger = some l ∧ replay l.events = .ok st ∧
      ∀ rid, valueAt st.reservedMsat rid = 1000 * held s.world rid := by
  unfold Agrees
  constructor
  · rintro ⟨l, st, hl, hr, h⟩
    refine ⟨l, st, hl, hr, fun rid => ?_⟩
    rw [valueAt, h rid]
    split <;> simp_all
  · rintro ⟨l, st, hl, hr, h⟩
    refine ⟨l, st, hl, hr, fun rid => ?_⟩
    rw [replay_reserved_getElem? hr, h rid]
    by_cases hz : held s.world rid = 0 <;> simp [hz]

theorem initial_agrees (held : ω → String → ℤ) (s : GovernorState ω)
    (faults : List (Option EconError)) (hl : s.ledger = some ⟨[], faults⟩)
    (hw : ∀ rid, held s.world rid = 0) : Agrees held s := by
  refine agrees_iff_books.mpr ⟨_, ⟨∅, ∅, 0, ∅, []⟩, hl, ?_, fun rid => ?_⟩
  · have hempty : accumulate [] = .ok .empty := rfl
    refine replay_of hempty (finish_ok_iff.mpr ⟨rfl, ?_, rfl, rfl, rfl⟩)
    apply Std.ExtTreeMap.ext_getElem?
    intro k
    simp [Accumulator.empty]
  · rw [hw]
    simp [valueAt]

/-- Appending events that move the replayed holds as the store moved keeps the agreement. -/
theorem agrees_append {held : ω → String → ℤ} {s t : GovernorState ω} (h : Agrees held s)
    (events : List LedgerEvent) (hevents : ∀ e ∈ events, HoldEvent e)
    (hledger : ∀ l, s.ledger = some l → ∃ l', t.ledger = some l' ∧ l'.events = l.events ++ events)
    (hheld : ∀ m : String → ℤ, (∀ rid, m rid = 1000 * held s.world rid) →
      ∀ rid, events.foldl holdEffect m rid = 1000 * held t.world rid) :
    Agrees held t := by
  obtain ⟨l, st, hl, hr, hm⟩ := agrees_iff_books.mp h
  obtain ⟨l', hl', hevs⟩ := hledger l hl
  obtain ⟨st', hr', hst'⟩ := replay_append hr hevents
  refine agrees_iff_books.mpr ⟨l', st', hl', by rw [hevs]; exact hr', fun rid => ?_⟩
  rw [hst'.reserved]
  exact hheld _ hm rid

theorem agrees_unchanged {held : ω → String → ℤ} {s t : GovernorState ω} (h : Agrees held s)
    (hledger : t.ledger = s.ledger) (hworld : held t.world = held s.world) : Agrees held t := by
  unfold Agrees
  rw [hledger, hworld]
  exact h

theorem agrees_recorded {held : ω → String → ℤ} {g : GovernorFacade ω} {env : IntentEnvelope}
    {now : ℤ} {reservationId : Option String} {s t : GovernorState ω} {l : Option Ledger}
    (h : Agrees held s) (hg : HoldsContract g held) (ht : Held g env now reservationId s t)
    (hrec : Recorded env (effectiveReservationId env reservationId) now s.ledger l) :
    Agrees held { t with ledger := l } := by
  refine agrees_append h (grantEvents env (effectiveReservationId env reservationId) now)
    ?_ ?_ ?_
  · intro e he
    simp only [grantEvents] at he
    split at he
    · simp only [List.mem_cons, List.not_mem_nil, or_false] at he
      rcases he with rfl | rfl <;> exact ⟨by simp [authorizedEvent, reservedEvent],
        by simp [authorizedEvent, reservedEvent]⟩
    · obtain rfl := List.mem_singleton.mp he
      exact ⟨by simp [authorizedEvent], by simp [authorizedEvent]⟩
  · intro a ha
    rw [ha] at hrec
    cases l with
    | none => exact hrec.elim
    | some b => exact ⟨b, rfl, hrec⟩
  · intro m hm rid
    rcases ht with ⟨hpos, w, hreply, rfl⟩ | ⟨hzero, rfl⟩
    · have hupdate := hg.grant _ _ _ _ _ hreply
      simp only [grantEvents, hpos, if_true, List.foldl_cons, List.foldl_nil]
      simp only [holdEffect, authorizedEvent, reservedEvent, hupdate, Function.update_apply]
      split
      · simp [valueAt_insert, mul_comm]
      · exact hm rid
    · simp only [grantEvents, hzero, lt_irrefl, if_false, List.foldl_cons, List.foldl_nil]
      exact hm rid

theorem authorize_agrees {held : ω → String → ℤ} {g : GovernorFacade ω} {env : IntentEnvelope}
    {now : ℤ} {reservationId : Option String} {s t : GovernorState ω} {d : GovernorDecision}
    (h : Agrees held s) (hg : HoldsContract g held)
    (hok : authorize g env now reservationId s = (.ok d, t)) : Agrees held t := by
  have he := authorize_effect g env now reservationId s
  rw [hok] at he
  simp only at he
  cases he with
  | gated r hclosed hna => exact h
  | conflict code a l hopen hr hc hn =>
    obtain ⟨lo, st, hlo, hreplay, hm⟩ := h
    rw [hlo] at hn
    cases l with
    | none => exact hn.elim
    | some b =>
      have hs : Agrees held s := ⟨lo, st, hlo, hreplay, hm⟩
      rcases hn with hn | hn
      · exact ⟨b, st, rfl, by rw [hn]; exact hreplay, hm⟩
      · refine agrees_append hs [conflictEvent env code now] ?_ ?_ ?_
        · intro e he
          obtain rfl := List.mem_singleton.mp he
          exact ⟨by simp [conflictEvent], by simp [conflictEvent]⟩
        · intro a' ha'
          obtain rfl := Option.some.inj (hlo.symm.trans ha')
          exact ⟨b, rfl, hn⟩
        · exact fun m hm rid => hm rid
  | notReserved r x w hopen hfree hpos hreply hx =>
    rcases hx with ⟨rfl, -⟩ | ⟨e, -, hr⟩
    · exact agrees_unchanged h rfl (hg.refuse _ _ _ _ _ hreply)
    · simp at hr
  | recorded r u v hopen hfree hheld hrec =>
    cases hrec with
    | granted l hnf hrecorded =>
      have hledger : u.ledger = s.ledger := by
        rcases hheld with ⟨-, w, -, rfl⟩ | ⟨-, rfl⟩ <;> rfl
      rw [hledger] at hrecorded
      exact agrees_recorded h hg hheld hrecorded

theorem release_agrees {held : ω → String → ℤ} {g : GovernorFacade ω}
    {token : AuthorizationToken} {now : ℤ} {s t : GovernorState ω} {b : Bool}
    (h : Agrees held s) (hg : HoldsContract g held) (hok : release g token now s = (.ok b, t)) :
    Agrees held t := by
  have he := release_effect g token now s
  rw [hok] at he
  simp only at he
  cases he with
  | released b w l hw hl hnone =>
    refine agrees_append h [releasedEvent token now] ?_ hl ?_
    · intro e he
      obtain rfl := List.mem_singleton.mp he
      exact ⟨by simp [releasedEvent], by simp [releasedEvent]⟩
    · intro m hm rid
      simp only [List.foldl_cons, List.foldl_nil, holdEffect, releasedEvent,
        hg.release _ _ _ _ hw, Function.update_apply]
      split
      · rfl
      · exact hm rid

theorem token_bounds {g : GovernorFacade ω} {env : IntentEnvelope} {now : ℤ}
    {reservationId : Option String} {s t : GovernorState ω} {d : GovernorDecision}
    {token : AuthorizationToken} (hok : authorize g env now reservationId s = (.ok d, t))
    (htoken : d.token = some token) :
    env.maxCostMsat.value ≤ token.reservedMsat ∧
      token.reservedMsat < env.maxCostMsat.value + 1000 := by
  have he := authorize_effect g env now reservationId s
  rw [hok] at he
  simp only at he
  have hrefused : NotAuthorized (.ok d) → False := by
    rintro (⟨code, hd⟩ | ⟨e, hd⟩)
    · rw [Outcome.ok.inj hd] at htoken
      simp [refused] at htoken
    · simp at hd
  cases he with
  | gated r hclosed hna => exact (hrefused hna).elim
  | conflict code a l => exact (hrefused (Or.inl ⟨code, rfl⟩)).elim
  | notReserved r x w hopen hfree hpos hreply hx => exact (hrefused hx.not_authorized).elim
  | recorded r u v hopen hfree hheld hrec =>
    cases hrec with
    | granted l hnf hrecorded =>
      obtain rfl := Option.some.inj htoken
      exact toSatsCeil_bounds env.maxCostMsat

theorem run_agrees {held : ω → String → ℤ} {s t : GovernorState ω} (h : Agrees held s)
    (hrun : HoldRun held s t) : Agrees held t := by
  induction hrun with
  | refl => exact h
  | authorize g env now reservationId d _ hg hok ih => exact authorize_agrees ih hg hok
  | release g token now b _ hg hok ih => exact release_agrees ih hg hok

/-- Governor and ledger agree on the outstanding holds after every run of calls that return Ok,
and every token issued in it covers its worst-case cost by less than one sat more. -/
theorem holds_agree {held : ω → String → ℤ} {s t : GovernorState ω} (h : Agrees held s)
    (hrun : HoldRun held s t) :
    Agrees held t ∧ ∀ (g : GovernorFacade ω) (env : IntentEnvelope) (now : ℤ)
      (reservationId : Option String) (d : GovernorDecision) (u : GovernorState ω)
      (token : AuthorizationToken), authorize g env now reservationId t = (.ok d, u) →
        d.token = some token → env.maxCostMsat.value ≤ token.reservedMsat ∧
          token.reservedMsat < env.maxCostMsat.value + 1000 :=
  ⟨run_agrees h hrun, fun _ _ _ _ _ _ _ hok htoken => token_bounds hok htoken⟩

section MapDelegate

def mapFacade : GovernorFacade (String → ℤ) where
  reserveSpend := fun rid sats _ w =>
    if sats ≤ 1000 then (.ok true, Function.update w rid sats) else (.ok false, w)
  releaseSpend := fun rid w => (.ok true, Function.update w rid 0)
  isPaused := fun _ => false
  authorityCheck := none
  extendedRulesProvider := none

theorem mapFacade_contract : HoldsContract mapFacade id := by
  constructor
  · intro rid sats bucket w w' h
    simp only [mapFacade] at h
    split at h <;> simp_all
  · intro rid sats bucket w w' h
    simp only [mapFacade] at h
    split at h <;> simp_all
  · intro rid w b w' h
    exact (Prod.mk.inj h).2.symm

def mapGovernor : GovernorState (String → ℤ) := ⟨fun _ => 0, none, some .empty, []⟩

theorem mapIntent_valid : validIntentId "int-1" = true := by decide

def mapEnvelope : IntentEnvelope where
  intentId := ⟨"int-1", mapIntent_valid⟩
  intentType := .swapOut
  idempotencyKey := "key"
  snapshotId := "snapshot"
  expiresAt := ⟨100, hundred_nonneg, hundred_le_u63Max⟩
  target := "1x1x1"
  maxCostMsat := ⟨2500, by decide, by decide⟩
  budgetBucket := "swap"

/-- A grant under a caller's id, then the agreement with a hold of three sats. -/
theorem holds_agree_after_grant :
    Agrees id (authorize mapFacade mapEnvelope 10 (some "row-7") mapGovernor).2 := by
  have hok : authorize mapFacade mapEnvelope 10 (some "row-7") mapGovernor =
      (.ok ⟨true, some (tokenFor mapEnvelope "row-7" 3000 10), ""⟩,
        (authorize mapFacade mapEnvelope 10 (some "row-7") mapGovernor).2) :=
    Prod.ext (by decide) rfl
  have hstart : Agrees id mapGovernor := initial_agrees id mapGovernor [] rfl fun _ => rfl
  exact (holds_agree hstart (.authorize _ _ _ _ _ .refl mapFacade_contract hok)).1

end MapDelegate

end GovernorHolds
