import RevenueOps.RouteExecutor

/-! Pending-payment safety of the route executor, for every node and every request: at most one
payment goes out, and a payment that may still settle keeps its invoice and its record. -/
namespace RouteExecutorSafety

open FallibleState JsonValue RouteExecutor RustText

variable {ω : Type}

def isSendpay : RpcCall → Bool
  | .sendpay .. => true
  | _ => false

def isCleanup : RpcCall → Bool
  | .delpay .. => true
  | .delinvoice .. => true
  | _ => false

def sendpays (t : ExecState ω) : ℕ := t.calls.countP isSendpay
def cleanups (t : ExecState ω) : ℕ := t.calls.countP isCleanup

/-- The status is complete, null or absent; a reply that is no object has none. -/
def Completed (paid : Json) : Prop :=
  ∀ members, paid = .obj members → JsonMap.lookup members "status" = none ∨
    JsonMap.lookup members "status" = some .null ∨
    JsonMap.lookup members "status" = some (.str "complete")

theorem incompleteStatus_none [SerdeJson] {paid : Json} (h : incompleteStatus paid = none) :
    Completed paid := by
  rintro members rfl
  unfold incompleteStatus at h
  dsimp only at h
  split at h
  · exact Or.inl ‹_›
  · exact Or.inr (Or.inl ‹_›)
  · rename_i s hs
    split at h
    · rename_i hc
      rw [hc] at hs
      exact Or.inr (Or.inr hs)
    · cases h
  · cases h

/-- How far a payment attempt went: before sendpay, or past it. -/
structure Attempted (sent : Bool) (t : ExecState ω) : Prop where
  flag : t.paymentAttempted = sent
  hash : sent = true → t.paymentHash ≠ ""
  payments : sendpays t = if sent then 1 else 0
  cleanup : cleanups t = 0
  observations : t.observations = []

theorem attempted_start (world : ω) : Attempted false (ExecState.start world) :=
  ⟨rfl, by simp, rfl, rfl, rfl⟩

section Rules

variable {ε α : Type}

theorem wp_issue {call : ω → Except RpcFailure α × ω} {log : Except RpcFailure α → RpcCall}
    {Q : Post (ExecState ω) ε (Except RpcFailure α)} {s : ExecState ω}
    (h : ∀ reply world, Q.ok reply { s with
      world := world
      calls := s.calls ++ [log reply] }) : wp (issue call log) Q s := by
  unfold wp issue
  exact h _ _

theorem wp_orFail [SerdeJson] {reply : Except RpcFailure α}
    {Q : Post (ExecState ω) Failure α} {s : ExecState ω} (hok : ∀ a, reply = .ok a → Q.ok a s)
    (herr : ∀ f, Q.err f s) : wp (orFail reply) Q s := by
  unfold orFail
  cases reply with
  | ok a => exact (wp_pure _ _ _).mpr (hok a rfl)
  | error f => exact (wp_throw _ _ _).mpr (herr _)

end Rules

/-- A call that is neither a payment nor a cleanup keeps the attempt where it is. -/
theorem Attempted.log {sent : Bool} {s : ExecState ω} (h : Attempted sent s) {c : RpcCall}
    (hpay : isSendpay c = false) (hclean : isCleanup c = false) (world : ω) :
    Attempted sent { s with
      world := world
      calls := s.calls ++ [c] } := by
  refine ⟨h.flag, h.hash, ?_, ?_, h.observations⟩
  · have hp := h.payments
    simp only [sendpays] at hp ⊢
    simp [List.countP_append, hpay, hp]
  · have hc := h.cleanup
    simp only [cleanups] at hc ⊢
    simp [List.countP_append, hclean, hc]

theorem Attempted.pay {s : ExecState ω} (h : Attempted false s) {hash : String} (hne : hash ≠ "")
    {c : RpcCall} (hpay : isSendpay c = true) (hclean : isCleanup c = false) (world : ω) :
    Attempted true
      ⟨world, s.calls ++ [c], s.observations, hash, true⟩ := by
  refine ⟨rfl, fun _ => hne, ?_, ?_, h.observations⟩
  · have hp := h.payments
    simp only [sendpays] at hp ⊢
    simp [List.countP_append, hpay, hp]
  · have hc := h.cleanup
    simp only [cleanups] at hc ⊢
    simp [List.countP_append, hclean, hc]

/-- An attempt issues at most one payment and neither cleans up nor records anything. -/
theorem wp_attemptPayment [SerdeJson] (rpc : PaymentRpc ω) (req : ExecuteRequest)
    (label : String) {s : ExecState ω} (hs : Attempted false s) :
    wp (attemptPayment rpc req label)
      ⟨fun paid t => Attempted true t ∧ Completed paid ∧
          ∃ hash, RpcCall.waitsendpay hash sendpayTimeoutSec (.ok paid) ∈ t.calls,
        fun _ t => ∃ sent, Attempted sent t, fun t => t = s⟩ s := by
  unfold attemptPayment
  simp only [wp_bind, wp_checked]
  refine ⟨fun amountMsat _ => ?_, fun _ => rfl⟩
  refine (wp_bind _ _ _ _).mpr (wp_issue fun reply world => ?_)
  have h₁ := hs.log (c := .invoice amountMsat label invoiceExpirySec reply) rfl rfl world
  refine (wp_bind _ _ _ _).mpr (wp_orFail (fun invoice hinvoice => ?_) fun _ => ⟨false, h₁⟩)
  clear hinvoice
  cases invoice
  case obj members =>
    refine wp_ite.mpr ⟨fun _ => (wp_throw _ _ _).mpr ⟨false, h₁⟩, fun hhash => ?_⟩
    -- From here on the payment is attempted, whatever comes back.
    refine (wp_bind _ _ _ _).mpr ((wp_modify _ _ _).mpr ?_)
    refine (wp_bind _ _ _ _).mpr ((wp_modify _ _ _).mpr ?_)
    refine (wp_bind _ _ _ _).mpr (wp_issue fun sent world' => ?_)
    have h₂ := h₁.pay hhash (c := .sendpay req.route (textMember members "payment_hash")
      (textMember members "bolt11") (textMember members "payment_secret") sent) rfl rfl world'
    refine (wp_bind _ _ _ _).mpr (wp_orFail (fun _ _ => ?_) fun _ => ⟨true, h₂⟩)
    refine (wp_bind _ _ _ _).mpr (wp_issue fun waited world'' => ?_)
    have h₃ := h₂.log (c := .waitsendpay (textMember members "payment_hash") sendpayTimeoutSec
      waited) rfl rfl world''
    refine (wp_bind _ _ _ _).mpr (wp_orFail (fun paid hpaid => ?_) fun _ => ⟨true, h₃⟩)
    dsimp only [Post.ofOk]
    cases hstatus : incompleteStatus paid with
    | some text => exact (wp_throw _ _ _).mpr ⟨true, h₃⟩
    | none =>
      refine (wp_pure _ _ _).mpr ⟨h₃, incompleteStatus_none hstatus,
        textMember members "payment_hash", ?_⟩
      simp [hpaid]
  all_goals exact (wp_throw _ _ _).mpr ⟨false, h₁⟩

structure Pending (req : ExecuteRequest) (r : ExecutionResult) (t : ExecState ω) : Prop where
  failed : r.success = false
  onePayment : sendpays t = 1
  hash : ∃ h, h ≠ "" ∧ r.paymentHash = some h
  fee : ∃ fee, validateRoute req = .ok fee ∧ r.feeMsat = fee ∧
    baseToSatsCeil fee = some r.feeSats
  excluded : r.excludedChannels = []
  kept : cleanups t = 0
  observations : t.observations = []

structure PaymentSafe (mode : PaymentMode) (req : ExecuteRequest)
    (outcome : Outcome Empty ExecutionResult) (t : ExecState ω) : Prop where
  dryRun : mode = .dryRun → t.calls = []
  invalid : (∀ fee, validateRoute req ≠ .ok fee) → t.calls = []
  onePayment : sendpays t ≤ 1
  pending : ∀ r, outcome = .ok r → r.paymentPending = true → Pending req r t
  success : ∀ r, outcome = .ok r → r.success = true → ∃ hash paid,
    RpcCall.waitsendpay hash sendpayTimeoutSec (.ok paid) ∈ t.calls ∧ Completed paid

/-- Calls that only clean up leave the count of payments alone. -/
theorem wp_cleanup (rpc : PaymentRpc ω) (paymentHash label : String) {n : ℕ} {s : ExecState ω}
    (hs : sendpays s = n) :
    wp (cleanupFailedPayment rpc paymentHash label)
      ⟨fun _ t => sendpays t = n, fun _ _ => True, fun _ => False⟩ s := by
  have hlog : ∀ (t : ExecState ω) (c : RpcCall) (world : ω), sendpays t = n →
      isSendpay c = false → sendpays { t with
        world := world
        calls := t.calls ++ [c] } = n := by
    intro t c world ht hc
    simp only [sendpays] at ht ⊢
    simp [List.countP_append, hc, ht]
  have hinvoice : ∀ t : ExecState ω, sendpays t = n → wp (deleteInvoice rpc label)
      ⟨fun _ t => sendpays t = n, fun _ _ => True, fun _ => False⟩ t := by
    intro t ht
    refine wp_ite.mpr ⟨fun _ => ?_, fun _ => (wp_pure _ _ _).mpr ht⟩
    refine (wp_bind _ _ _ _).mpr (wp_issue fun reply world => ?_)
    exact (wp_pure _ _ _).mpr (hlog t _ world ht rfl)
  refine (wp_bind _ _ _ _).mpr (wp_ite.mpr ⟨fun _ => ?_, fun _ => ?_⟩)
  · refine (wp_bind _ _ _ _).mpr (wp_issue fun reply world => (wp_pure _ _ _).mpr ?_)
    exact hinvoice _ (hlog s _ world hs rfl)
  · exact (wp_pure _ _ _).mpr (hinvoice s hs)

theorem wp_record (result : ExecutionResult) (req : ExecuteRequest) {n : ℕ} {s : ExecState ω}
    (hs : sendpays s = n) :
    wp (recordFailureObservations result req)
      ⟨fun _ t => sendpays t = n, fun _ _ => True, fun _ => False⟩ s := by
  unfold recordFailureObservations
  refine wp_ite.mpr ⟨fun _ => (wp_pure _ _ _).mpr hs, fun _ => ?_⟩
  cases result.failureData
  case obj failureData => exact (wp_modify _ _ _).mpr hs
  all_goals exact (wp_pure _ _ _).mpr hs

/-- After a failed attempt nothing is paid, and only a resolved failure is cleaned up. -/
theorem wp_settleFailure [UnicodeCase] [SerdeJson] (rpc : PaymentRpc ω) (req : ExecuteRequest)
    {plannedFeeMsat : ℤ} (hfee : validateRoute req = .ok plannedFeeMsat) (label : String)
    (failure : Failure) {sent : Bool} {s : ExecState ω} (hs : Attempted sent s) :
    wp (settleFailure rpc req plannedFeeMsat label failure)
      ⟨fun r t => sendpays t ≤ 1 ∧ r.success = false ∧ (r.paymentPending = true → Pending req r t),
        fun _ _ => True, fun t => sendpays t ≤ 1⟩ s := by
  have hone : sendpays s ≤ 1 := by
    rw [hs.payments]
    split <;> omega
  unfold settleFailure
  simp only [wp_bind, wp_read, Post.ofOk]
  refine wp_ite.mpr ⟨fun hunresolved => ?_, fun _ => ?_⟩
  · refine (wp_checked _ _ _).mpr ⟨fun r hr => ?_, fun _ => hone⟩
    -- Only an attempted payment is unresolved.
    have hsent : sent = true := by
      rw [← hs.flag]
      by_contra hno
      simp [isPaymentUnresolved, hno] at hunresolved
    subst hsent
    unfold pendingResult at hr
    cases hsats : baseToSatsCeil plannedFeeMsat with
    | none => simp [hsats] at hr
    | some feeSats =>
      simp only [hsats, Option.pure_def, Option.bind_eq_bind, Option.bind_some,
        Option.some.injEq] at hr
      subst hr
      refine ⟨hone, rfl, fun _ => ⟨rfl, hs.payments, ⟨_, hs.hash rfl, rfl⟩,
        ⟨_, hfee, rfl, hsats⟩, rfl, hs.cleanup, hs.observations⟩⟩
  · have hkept : ∀ r : ExecutionResult, r.success = false → r.paymentPending = false →
        ∀ t : ExecState ω, sendpays t = sendpays s →
          sendpays t ≤ 1 ∧ r.success = false ∧ (r.paymentPending = true → Pending req r t) := by
      intro r hfail hpending t ht
      exact ⟨ht ▸ hone, hfail, fun hp => by simp [hpending] at hp⟩
    cases stripPrefix failure.rawMessage malformedInvoiceMarker with
    | some reason =>
      refine (wp_bind _ _ _ _).mpr (wp_mono (wp_cleanup rpc "" label rfl) ?_
        (fun _ _ => id) fun _ => False.elim)
      intro _ t ht
      exact (wp_pure _ _ _).mpr (hkept _ rfl rfl t ht)
    | none =>
      refine (wp_bind _ _ _ _).mpr (wp_mono (wp_cleanup rpc s.paymentHash label rfl) ?_
        (fun _ _ => id) fun _ => False.elim)
      intro _ t ht
      refine (wp_bind _ _ _ _).mpr (wp_mono (wp_record _ req ht) ?_ (fun _ _ => id)
        fun _ => False.elim)
      intro _ u hu
      exact (wp_pure _ _ _).mpr (hkept _ rfl rfl u hu)

theorem invalidRouteResult_quiet {req : ExecuteRequest} {reason : String} {feeMsat : ℤ}
    {r : ExecutionResult} (h : invalidRouteResult req reason feeMsat = some r) :
    r.success = false ∧ r.paymentPending = false := by
  simp only [invalidRouteResult, Option.bind_eq_bind, Option.bind_eq_some_iff, Option.pure_def,
    Option.some.injEq] at h
  obtain ⟨_, _, rfl⟩ := h
  exact ⟨rfl, rfl⟩

theorem gatedResult_quiet {req : ExecuteRequest} {plannedFeeMsat : ℤ} {r : ExecutionResult}
    (h : gatedResult req plannedFeeMsat = some r) :
    r.success = false ∧ r.paymentPending = false := by
  simp only [gatedResult, Option.bind_eq_bind, Option.bind_eq_some_iff, Option.pure_def,
    Option.some.injEq] at h
  obtain ⟨_, _, rfl⟩ := h
  exact ⟨rfl, rfl⟩

theorem settledResult_not_pending {req : ExecuteRequest} {paid : Json} {r : ExecutionResult}
    (h : settledResult req paid = some r) : r.paymentPending = false := by
  simp only [settledResult, Option.bind_eq_bind, Option.bind_eq_some_iff, Option.pure_def,
    Option.some.injEq] at h
  obtain ⟨_, _, _, _, _, _, _, _, rfl⟩ := h
  rfl

/-- NativeRouteExecutor::execute, for every node, mode and request. -/
theorem execute_payment_safe [UnicodeCase] [SerdeJson] (rpc : PaymentRpc ω) (mode : PaymentMode)
    (req : ExecuteRequest) (world : ω) :
    PaymentSafe mode req (execute rpc mode req (.start world)).1
      (execute rpc mode req (.start world)).2 := by
  apply wp_ofRel.mp
  unfold execute
  have hquiet : ∀ outcome, (∀ r, outcome = .ok r → r.success = false ∧ r.paymentPending = false) →
      PaymentSafe mode req outcome (ExecState.start world) := by
    intro outcome hr
    refine ⟨fun _ => rfl, fun _ => rfl, Nat.zero_le _, fun r ho hp => ?_, fun r ho hs => ?_⟩
    · simp [(hr r ho).2] at hp
    · simp [(hr r ho).1] at hs
  cases hroute : validateRoute req with
  | panic => exact (wp_panic _ _).mpr (hquiet _ (by simp))
  | err e =>
    refine (wp_checked _ _ _).mpr
      ⟨fun r hr => hquiet _ fun r' hr' => ?_, fun _ => hquiet _ (by simp)⟩
    obtain rfl := Outcome.ok.inj hr'
    exact invalidRouteResult_quiet hr
  | ok plannedFeeMsat =>
    cases mode with
    | dryRun =>
      refine (wp_checked _ _ _).mpr
        ⟨fun r hr => hquiet _ fun r' hr' => ?_, fun _ => hquiet _ (by simp)⟩
      obtain rfl := Outcome.ok.inj hr'
      exact gatedResult_quiet hr
    | live =>
      have hsafe : ∀ outcome t, sendpays t ≤ 1 →
          (∀ r, outcome = .ok r → r.paymentPending = true → Pending req r t) →
          (∀ r, outcome = .ok r → r.success = true → ∃ hash paid,
            RpcCall.waitsendpay hash sendpayTimeoutSec (.ok paid) ∈ t.calls ∧ Completed paid) →
          PaymentSafe .live req outcome (t : ExecState ω) := by
        intro outcome t hone hpending hsuccess
        exact ⟨by simp, fun hno => absurd hroute (hno _), hone, hpending, hsuccess⟩
      refine (wp_bind _ _ _ _).mpr ((wp_attempt _ _ _).mpr ?_)
      refine wp_mono (wp_attemptPayment rpc req _ (attempted_start world)) ?_ ?_ ?_
      · rintro paid t ⟨hpaying, hcompleted, hash, hcall⟩
        have hone : sendpays t ≤ 1 := by simp [hpaying.payments]
        refine (wp_checked _ _ _).mpr ⟨fun r hr => hsafe _ t hone ?_ ?_,
          fun _ => hsafe _ t hone (by simp) (by simp)⟩
        · intro r' hr' hp
          obtain rfl := Outcome.ok.inj hr'
          simp [settledResult_not_pending hr] at hp
        · exact fun _ _ _ => ⟨hash, paid, hcall, hcompleted⟩
      · rintro failure t ⟨sent, hattempted⟩
        refine wp_mono (wp_settleFailure rpc req hroute _ failure hattempted) ?_
          (fun e _ _ => e.elim) fun u hu => hsafe _ u hu (by simp) (by simp)
        rintro r u ⟨hone, hfailed, hpending⟩
        refine hsafe _ u hone ?_ ?_
        · intro r' hr' hp
          obtain rfl := Outcome.ok.inj hr'
          exact hpending hp
        · intro r' hr' hs
          obtain rfl := Outcome.ok.inj hr'
          simp [hfailed] at hs
      · rintro t rfl
        exact hquiet _ (by simp)

end RouteExecutorSafety
