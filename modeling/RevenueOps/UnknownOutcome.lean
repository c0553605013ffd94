import RevenueOps.RouteExecutorSafety

/-! A payment whose fate the node never reported. The executor recognises such a payment by
the text and the code of the failing reply, so this file asks for every reply whether the payment
is kept, and keeps apart what the node said and what the executor makes of it. -/
namespace UnknownOutcome

open FallibleState JsonValue RouteExecutor RouteExecutorSafety RustNumber RustText

variable {ω : Type}

/-- The node settled the question: a status other than pending, or an error with its own code. -/
def FinalReply [SerdeJson] : Except RpcFailure Json → Prop
  | .ok paid => ∃ members status, paid = .obj members ∧
      JsonMap.lookup members "status" = some status ∧ status ≠ .null ∧ status ≠ .str "pending"
  | .error failure => ∃ err code, SerdeJson.fromStr failure.message = some (.obj err) ∧
      (JsonMap.lookup err "code" >>= Json.asI64) = some code ∧ code ≠ 200

structure Unreported [SerdeJson] (hash : String) (calls : List RpcCall) : Prop where
  sent : ∃ route bolt11 paymentSecret reply,
    RpcCall.sendpay route hash bolt11 paymentSecret reply ∈ calls
  silent : ∀ timeoutSecs reply, RpcCall.waitsendpay hash timeoutSecs reply ∈ calls →
    ¬ FinalReply reply

def Kept (outcome : Outcome Empty ExecutionResult) (t : ExecState ω) : Prop :=
  ∃ r, outcome = .ok r ∧ r.paymentPending = true ∧ cleanups t = 0

/-- The reply carries one of the three marks: code 200, a proxy deadline, a pending status. -/
def Marked [UnicodeCase] [SerdeJson] (failure : RpcFailure) : Prop :=
  isPaymentUnresolved true (Failure.fromRpc failure).rawMessage
    (Failure.fromRpc failure).errorText (Failure.fromRpc failure).details = true

def PendingReply [UnicodeCase] [SerdeJson] : Except RpcFailure Json → Prop
  | .ok paid => ∃ members, paid = .obj members ∧
      JsonMap.lookup members "status" = some (.str "pending")
  | .error failure => Marked failure

def ToldPending [UnicodeCase] [SerdeJson] (hash : String) (calls : List RpcCall) : Prop :=
  (∃ route bolt11 paymentSecret failure,
    RpcCall.sendpay route hash bolt11 paymentSecret (.error failure) ∈ calls ∧ Marked failure) ∨
  ∃ timeoutSecs reply, RpcCall.waitsendpay hash timeoutSecs reply ∈ calls ∧ PendingReply reply

inductive Answer where
  | refused (failure : RpcFailure)
  | waited (reply : Except RpcFailure Json)

/-- What the attempt hands on when it does not return the paid reply. -/
def Answer.failure [SerdeJson] : Answer → Option Failure
  | .refused failure => some (Failure.fromRpc failure)
  | .waited (.error failure) => some (Failure.fromRpc failure)
  | .waited (.ok paid) =>
    (incompleteStatus paid).map fun text => Failure.internal ("waitsendpay_status=" ++ text)

inductive Dispatched (hash : String) : Answer → List RpcCall → Prop where
  | refused (amountMsat : ℤ) (label : String) (reply : Except RpcFailure Json)
      (route : List SendpayHop) (bolt11 paymentSecret : String) (failure : RpcFailure) :
      Dispatched hash (.refused failure)
        [.invoice amountMsat label invoiceExpirySec reply,
          .sendpay route hash bolt11 paymentSecret (.error failure)]
  | waited (amountMsat : ℤ) (label : String) (invoiced : Except RpcFailure Json)
      (route : List SendpayHop) (bolt11 paymentSecret : String) (sent : Json)
      (reply : Except RpcFailure Json) :
      Dispatched hash (.waited reply)
        [.invoice amountMsat label invoiceExpirySec invoiced,
          .sendpay route hash bolt11 paymentSecret (.ok sent),
          .waitsendpay hash sendpayTimeoutSec reply]

inductive AttemptEnd [SerdeJson] (t : ExecState ω) (failure : Option Failure) : Prop where
  | unsent (none : sendpays t = 0) (clean : cleanups t = 0)
  | sent (hash : String) (answer : Answer) (flag : t.paymentAttempted = true)
      (calls : Dispatched hash answer t.calls) (failed : answer.failure = failure)

/-- The calls of one attempt before any cleanup: whether the payment was attempted, and the
failure that the attempt hands on. -/
inductive Talk [SerdeJson] : Bool → List RpcCall → Option Failure → Prop where
  | unbilled (amountMsat : ℤ) (label : String) (failure : RpcFailure) :
      Talk false [.invoice amountMsat label invoiceExpirySec (.error failure)]
        (some (Failure.fromRpc failure))
  | malformed (amountMsat : ℤ) (label : String) (invoice : Json) (reason : String) :
      Talk false [.invoice amountMsat label invoiceExpirySec (.ok invoice)]
        (some (Failure.internal (malformedInvoiceMarker ++ reason)))
  | sent (hash : String) (answer : Answer) (calls : List RpcCall) :
      Dispatched hash answer calls → Talk true calls answer.failure

theorem Talk.ofStatus [SerdeJson] {hash : String} {paid : Json} {status : Option String}
    {calls : List RpcCall} (hstatus : incompleteStatus paid = status)
    (hcalls : Dispatched hash (.waited (.ok paid)) calls) :
    Talk true calls (status.map fun text => Failure.internal ("waitsendpay_status=" ++ text)) := by
  subst hstatus
  exact .sent hash (.waited (.ok paid)) calls hcalls

theorem wp_attemptPayment_talk [SerdeJson] (rpc : PaymentRpc ω) (req : ExecuteRequest)
    (label : String) (world : ω) :
    wp (attemptPayment rpc req label)
      ⟨fun _ t => Talk t.paymentAttempted t.calls none,
        fun failure t => Talk t.paymentAttempted t.calls (some failure),
        fun t => t.calls = []⟩ (.start world) := by
  unfold attemptPayment
  simp only [wp_bind, wp_checked]
  refine ⟨fun amountMsat _ => ?_, fun _ => rfl⟩
  refine (wp_bind _ _ _ _).mpr (wp_issue fun invoiced world => ?_)
  cases invoiced with
  | error failure => exact (wp_bind _ _ _ _).mpr ((wp_throw _ _ _).mpr (.unbilled _ _ failure))
  | ok invoice =>
    refine (wp_bind _ _ _ _).mpr ((wp_pure _ _ _).mpr ?_)
    cases invoice
    case obj members =>
      refine wp_ite.mpr ⟨fun _ => (wp_throw _ _ _).mpr (.malformed _ _ _ _), fun hhash => ?_⟩
      refine (wp_bind _ _ _ _).mpr ((wp_modify _ _ _).mpr ?_)
      refine (wp_bind _ _ _ _).mpr ((wp_modify _ _ _).mpr ?_)
      refine (wp_bind _ _ _ _).mpr (wp_issue fun sent world' => ?_)
      cases sent with
      | error failure =>
        refine (wp_bind _ _ _ _).mpr ((wp_throw _ _ _).mpr ?_)
        exact .sent _ (.refused failure) _ (.refused amountMsat label _ _ _ _ failure)
      | ok sent =>
        refine (wp_bind _ _ _ _).mpr ((wp_pure _ _ _).mpr ?_)
        refine (wp_bind _ _ _ _).mpr (wp_issue fun waited world'' => ?_)
        have hcalls := @Dispatched.waited (textMember members "payment_hash") amountMsat label
          (.ok (.obj members)) req.route (textMember members "bolt11")
          (textMember members "payment_secret") sent waited
        cases waited with
        | error failure =>
          refine (wp_bind _ _ _ _).mpr ((wp_throw _ _ _).mpr ?_)
          exact .sent _ (.waited (.error failure)) _ hcalls
        | ok paid =>
          refine (wp_bind _ _ _ _).mpr ((wp_pure _ _ _).mpr ?_)
          dsimp only [Post.ofOk]
          cases hstatus : incompleteStatus paid with
          | some text => exact (wp_throw _ _ _).mpr (Talk.ofStatus hstatus hcalls)
          | none => exact (wp_pure _ _ _).mpr (Talk.ofStatus hstatus hcalls)
    all_goals exact (wp_throw _ _ _).mpr (.malformed _ _ _ _)

theorem Talk.attemptEnd [SerdeJson] {t : ExecState ω} {failure : Option Failure}
    (h : Talk t.paymentAttempted t.calls failure) : AttemptEnd t failure := by
  obtain ⟨world, calls, observations, hash, attempted⟩ := t
  cases h with
  | unbilled => exact .unsent rfl rfl
  | malformed => exact .unsent rfl rfl
  | sent hash answer _ hcalls => exact .sent hash answer rfl hcalls rfl

theorem wp_attemptPayment_end [SerdeJson] (rpc : PaymentRpc ω) (req : ExecuteRequest)
    (label : String) (world : ω) :
    wp (attemptPayment rpc req label)
      ⟨fun _ t => AttemptEnd t none, fun failure t => AttemptEnd t (some failure),
        fun t => sendpays t = 0⟩ (.start world) := by
  refine wp_mono (wp_attemptPayment_talk rpc req label world) (fun _ _ h => h.attemptEnd)
    (fun _ _ h => h.attemptEnd) fun t h => ?_
  change t.calls.countP isSendpay = 0
  rw [show t.calls = [] from h]
  rfl

def CleanedUp (s t : ExecState ω) : Prop :=
  ∃ extra, t.calls = s.calls ++ extra ∧ ∀ c ∈ extra, isCleanup c = true

theorem CleanedUp.refl (s : ExecState ω) : CleanedUp s s := ⟨[], by simp, by simp⟩

theorem CleanedUp.trans {s t u : ExecState ω} (h : CleanedUp s t) (k : CleanedUp t u) :
    CleanedUp s u := by
  obtain ⟨xs, hxs, hclean⟩ := h
  obtain ⟨ys, hys, hclean'⟩ := k
  refine ⟨xs ++ ys, by rw [hys, hxs, List.append_assoc], fun c hc => ?_⟩
  rcases List.mem_append.mp hc with hc | hc
  · exact hclean c hc
  · exact hclean' c hc

theorem CleanedUp.mem_iff {s t : ExecState ω} (h : CleanedUp s t) {c : RpcCall}
    (hc : isCleanup c = false) : c ∈ t.calls ↔ c ∈ s.calls := by
  obtain ⟨extra, hextra, hclean⟩ := h
  rw [hextra, List.mem_append]
  constructor
  · rintro (h | h)
    · exact h
    · simp [hclean c h] at hc
  · exact Or.inl

theorem wp_issue_cleanup {ε α : Type} {call : ω → Except RpcFailure α × ω}
    {log : Except RpcFailure α → RpcCall} (hlog : ∀ reply, isCleanup (log reply) = true)
    (s : ExecState ω) :
    wp (issue call log : Exec ω ε (Except RpcFailure α))
      ⟨fun _ t => CleanedUp s t, fun _ _ => False, fun _ => False⟩ s := by
  apply wp_issue
  intro reply world
  exact ⟨[log reply], rfl, by simpa using hlog reply⟩

theorem wp_cleanup_calls (rpc : PaymentRpc ω) (paymentHash label : String) (s : ExecState ω) :
    wp (cleanupFailedPayment rpc paymentHash label)
      ⟨fun _ t => CleanedUp s t, fun _ _ => False, fun _ => False⟩ s := by
  have hinvoice : ∀ t, CleanedUp s t → wp (deleteInvoice rpc label)
      ⟨fun _ t => CleanedUp s t, fun _ _ => False, fun _ => False⟩ t := by
    intro t ht
    refine wp_ite.mpr ⟨fun _ => (wp_bind _ _ _ _).mpr ?_, fun _ => (wp_pure _ _ _).mpr ht⟩
    refine wp_mono (wp_issue_cleanup (fun _ => rfl) t) ?_ (fun _ _ => id) fun _ => id
    intro _ u hu
    exact (wp_pure _ _ _).mpr (ht.trans hu)
  refine (wp_bind _ _ _ _).mpr (wp_ite.mpr ⟨fun _ => (wp_bind _ _ _ _).mpr ?_, fun _ => ?_⟩)
  · refine wp_mono (wp_issue_cleanup (fun _ => rfl) s) ?_ (fun _ _ => id) fun _ => id
    intro _ t ht
    exact (wp_pure _ _ _).mpr (hinvoice t ht)
  · exact (wp_pure _ _ _).mpr (hinvoice s (.refl s))

theorem wp_record_calls (result : ExecutionResult) (req : ExecuteRequest) (s : ExecState ω) :
    wp (recordFailureObservations result req)
      ⟨fun _ t => CleanedUp s t, fun _ _ => False, fun _ => False⟩ s := by
  unfold recordFailureObservations
  refine wp_ite.mpr ⟨fun _ => (wp_pure _ _ _).mpr (.refl s), fun _ => ?_⟩
  cases result.failureData
  case obj failureData => exact (wp_modify _ _ _).mpr (.refl s)
  all_goals exact (wp_pure _ _ _).mpr (.refl s)

/-- The planned fee is below the first hop's amount by at least the 1000 msat that arrive. -/
theorem baseToSatsCeil_planned {req : ExecuteRequest} {fee : ℤ} (h : validateRoute req = .ok fee)
    (hamounts : ∀ hop ∈ req.route, InI64 hop.amountMsat) :
    ∃ feeSats, baseToSatsCeil fee = some feeSats := by
  unfold validateRoute at h
  split at h
  · cases h
  rename_i hamount
  split at h
  · rename_i first last hfirst _
    have hmem := hamounts first (List.mem_of_mem_head? hfirst)
    split at h
    · cases h
    split at h
    · cases h
    split at h
    · cases h
    obtain ⟨expected, hexpected, h⟩ := Outcome.bind_eq_ok.mp h
    split at h
    · cases h
    obtain ⟨_, _, h⟩ := Outcome.bind_eq_ok.mp h
    obtain ⟨difference, hdifference, h⟩ := Outcome.bind_eq_ok.mp h
    obtain ⟨limit, _, h⟩ := Outcome.bind_eq_ok.mp h
    split at h
    · obtain ⟨_, _, h⟩ := Outcome.bind_eq_ok.mp h
      cases h
    obtain rfl := Outcome.pure_eq_ok.mp h
    have he := (i64?_eq_some.mp (Outcome.checked_eq_ok.mp hexpected)).2
    have hd := (i64?_eq_some.mp (Outcome.checked_eq_ok.mp hdifference)).2
    have hsum : InI64 (max difference 0 + 999) := by
      unfold InI64 at hmem ⊢
      omega
    exact ⟨_, by rw [baseToSatsCeil, addI64, i64?_eq_some.mpr ⟨hsum, rfl⟩]; rfl⟩
  · cases h

theorem wp_settleFailure_kept [UnicodeCase] [SerdeJson] (rpc : PaymentRpc ω)
    (req : ExecuteRequest) {fee feeSats : ℤ} (hfee : baseToSatsCeil fee = some feeSats)
    (label : String) (failure : Failure) {s : ExecState ω} (hclean : cleanups s = 0) :
    wp (settleFailure rpc req fee label failure) (Post.ofRel fun outcome t => CleanedUp s t ∧
      (Kept outcome t ↔ isPaymentUnresolved s.paymentAttempted failure.rawMessage
        failure.errorText failure.details = true)) s := by
  unfold settleFailure
  simp only [wp_bind, wp_read, Post.ofOk]
  refine wp_ite.mpr ⟨fun hunresolved => ?_, fun hresolved => ?_⟩
  · refine (wp_checked _ _ _).mpr ⟨fun r hr => ⟨.refl s, ?_⟩, fun hnone => ?_⟩
    · simp only [pendingResult, hfee, Option.bind_eq_bind, Option.bind_some, Option.pure_def,
        Option.some.injEq] at hr
      subst hr
      exact ⟨fun _ => hunresolved, fun _ => ⟨_, rfl, rfl, hclean⟩⟩
    · simp [pendingResult, hfee] at hnone
  · have hlost : ∀ (r : ExecutionResult) (t : ExecState ω), r.paymentPending = false →
        CleanedUp s t → CleanedUp s t ∧ (Kept (.ok r) t ↔ isPaymentUnresolved
          s.paymentAttempted failure.rawMessage failure.errorText failure.details = true) := by
      intro r t hpending ht
      refine ⟨ht, fun h => ?_, fun h => absurd h hresolved⟩
      obtain ⟨r', hr', hkept, -⟩ := h
      obtain rfl := Outcome.ok.inj hr'
      simp [hpending] at hkept
    cases stripPrefix failure.rawMessage malformedInvoiceMarker with
    | some reason =>
      refine (wp_bind _ _ _ _).mpr (wp_mono (wp_cleanup_calls rpc "" label s) ?_
        (fun _ _ => False.elim) fun _ => False.elim)
      intro _ t ht
      exact (wp_pure _ _ _).mpr (hlost _ t rfl ht)
    | none =>
      refine (wp_bind _ _ _ _).mpr (wp_mono (wp_cleanup_calls rpc s.paymentHash label s) ?_
        (fun _ _ => False.elim) fun _ => False.elim)
      intro _ t ht
      refine (wp_bind _ _ _ _).mpr (wp_mono (wp_record_calls _ req t) ?_
        (fun _ _ => False.elim) fun _ => False.elim)
      intro _ u hu
      exact (wp_pure _ _ _).mpr (hlost _ u rfl (ht.trans hu))

theorem Dispatched.clean {hash : String} {answer : Answer} {calls : List RpcCall}
    (h : Dispatched hash answer calls) : calls.countP isCleanup = 0 := by
  cases h <;> rfl

/-- The whole run: no payment, or a payment that is kept exactly when its failure says so. -/
inductive RunEnd [UnicodeCase] [SerdeJson] (outcome : Outcome Empty ExecutionResult)
    (t : ExecState ω) : Prop where
  | unsent (none : sendpays t = 0)
  | sent (hash : String) (answer : Answer) (s : ExecState ω)
      (calls : Dispatched hash answer s.calls) (cleaned : CleanedUp s t)
      (kept : Kept outcome t ↔ ∃ failure, answer.failure = some failure ∧
        isPaymentUnresolved true failure.rawMessage failure.errorText failure.details = true)

theorem sendpays_of_cleanedUp {s t : ExecState ω} (h : CleanedUp s t) (hs : sendpays s = 0) :
    sendpays t = 0 := by
  obtain ⟨extra, hextra, hclean⟩ := h
  unfold sendpays at hs ⊢
  rw [hextra, List.countP_append, hs, Nat.zero_add, List.countP_eq_zero]
  intro c hc
  have := hclean c hc
  cases c <;> simp_all [isCleanup, isSendpay]

theorem execute_end [UnicodeCase] [SerdeJson] (rpc : PaymentRpc ω) (mode : PaymentMode)
    (req : ExecuteRequest) (world : ω) (hamounts : ∀ hop ∈ req.route, InI64 hop.amountMsat) :
    RunEnd (execute rpc mode req (.start world)).1 (execute rpc mode req (.start world)).2 := by
  apply wp_ofRel.mp
  unfold execute
  cases hroute : validateRoute req with
  | panic => exact (wp_panic _ _).mpr (.unsent rfl)
  | err e => exact (wp_checked _ _ _).mpr ⟨fun _ _ => .unsent rfl, fun _ => .unsent rfl⟩
  | ok fee =>
    obtain ⟨feeSats, hfee⟩ := baseToSatsCeil_planned hroute hamounts
    cases mode with
    | dryRun => exact (wp_checked _ _ _).mpr ⟨fun _ _ => .unsent rfl, fun _ => .unsent rfl⟩
    | live =>
      refine (wp_bind _ _ _ _).mpr ((wp_attempt _ _ _).mpr ?_)
      refine wp_mono (wp_attemptPayment_end rpc req _ world) ?_ ?_ fun t ht => .unsent ht
      · intro paid t ht
        have hend : ∀ outcome, ¬ Kept outcome t → RunEnd outcome t := by
          intro outcome hlost
          cases ht with
          | unsent hnone => exact .unsent hnone
          | sent hash answer _ hcalls hfailed =>
            refine .sent hash answer t hcalls (.refl t) ⟨fun h => absurd h hlost, ?_⟩
            rintro ⟨failure, hfailure, _⟩
            rw [hfailed] at hfailure
            cases hfailure
        refine (wp_checked _ _ _).mpr ⟨fun r hr => hend _ ?_, fun _ => hend _ ?_⟩
        · rintro ⟨r', hr', hkept, _⟩
          obtain rfl := Outcome.ok.inj hr'
          simp [settledResult_not_pending hr] at hkept
        · rintro ⟨_, hr', _⟩
          cases hr'
      · intro failure t ht
        cases ht with
        | unsent hnone hclean =>
          refine wp_mono (wp_settleFailure_kept rpc req hfee _ failure hclean) ?_ (fun e => e.elim)
            fun u hu => .unsent (sendpays_of_cleanedUp hu.1 hnone)
          intro r u hu
          exact .unsent (sendpays_of_cleanedUp hu.1 hnone)
        | sent hash answer hflag hcalls hfailed =>
          have hsettle := wp_settleFailure_kept rpc req hfee
            s!"rebal-native-{req.nowMs}-{req.destChannelId}" failure hcalls.clean
          rw [hflag] at hsettle
          have hend : ∀ outcome u, CleanedUp t u → (Kept outcome u ↔ isPaymentUnresolved true
              failure.rawMessage failure.errorText failure.details = true) → RunEnd outcome u := by
            intro outcome u hu hkept
            refine .sent hash answer t hcalls hu (hkept.trans ?_)
            simp [hfailed]
          exact wp_mono hsettle (fun r u hu => hend _ u hu.1 hu.2) (fun e => e.elim)
            fun u hu => hend _ u hu.1 hu.2

def Answer.Pending [UnicodeCase] [SerdeJson] : Answer → Prop
  | .refused failure => Marked failure
  | .waited reply => PendingReply reply

theorem Dispatched.hash_eq {hash hash' : String} {answer : Answer} {calls : List RpcCall}
    (h : Dispatched hash answer calls) {route : List SendpayHop} {bolt11 paymentSecret : String}
    {reply : Except RpcFailure Json}
    (hmem : RpcCall.sendpay route hash' bolt11 paymentSecret reply ∈ calls) : hash' = hash := by
  cases h with
  | refused =>
    simp only [List.mem_cons, RpcCall.sendpay.injEq, reduceCtorEq, List.not_mem_nil, or_false,
      false_or] at hmem
    exact hmem.2.1
  | waited =>
    simp only [List.mem_cons, RpcCall.sendpay.injEq, reduceCtorEq, List.not_mem_nil, or_false,
      false_or] at hmem
    exact hmem.2.1

theorem Dispatched.toldPending_iff [UnicodeCase] [SerdeJson] {hash : String} {answer : Answer}
    {s t : ExecState ω} (h : Dispatched hash answer s.calls) (ht : CleanedUp s t) :
    ToldPending hash t.calls ↔ answer.Pending := by
  have hsent : ∀ route bolt11 paymentSecret reply,
      RpcCall.sendpay route hash bolt11 paymentSecret reply ∈ t.calls ↔
        RpcCall.sendpay route hash bolt11 paymentSecret reply ∈ s.calls :=
    fun _ _ _ _ => ht.mem_iff rfl
  have hwaited : ∀ timeoutSecs reply, RpcCall.waitsendpay hash timeoutSecs reply ∈ t.calls ↔
      RpcCall.waitsendpay hash timeoutSecs reply ∈ s.calls := fun _ _ => ht.mem_iff rfl
  simp only [ToldPending, hsent, hwaited]
  generalize s.calls = calls at h
  cases h with
  | refused => simp [Answer.Pending]
  | waited => simp [Answer.Pending]

/-- Of the replies that are not final, only the pending status reads as incomplete. -/
theorem pending_of_unfinal [SerdeJson] {paid : Json} {text : String}
    (h : ¬ FinalReply (.ok paid)) (hstatus : incompleteStatus paid = some text) :
    text = "pending" ∧ ∃ members, paid = .obj members ∧
      JsonMap.lookup members "status" = some (.str "pending") := by
  unfold incompleteStatus at hstatus
  split at hstatus
  · rename_i members
    split at hstatus
    · cases hstatus
    · cases hstatus
    · rename_i s hs
      have hp : s = "pending" := by
        by_contra hne
        exact h ⟨members, .str s, rfl, hs, by simp, by simpa using hne⟩
      subst hp
      simp only [String.reduceEq, if_false, Option.some.injEq] at hstatus
      exact ⟨hstatus.symm, members, rfl, hs⟩
    · rename_i status hnull hstr hs
      refine absurd ⟨members, status, rfl, hs, ?_, ?_⟩ h
      · rintro rfl
        exact hnull rfl
      · exact hstr _
  · cases hstatus

theorem unresolved_pending [UnicodeCase] : isPaymentUnresolved true "waitsendpay_status=pending"
    "waitsendpay_status=pending" [] = true := by
  have hmark : contains "waitsendpay_status=pending" "waitsendpay_status=pending" = true := by
    decide
  simp [isPaymentUnresolved, hmark]

/-- Where no final reply came, the failure is unresolved exactly for a pending answer. -/
theorem Answer.unresolved_iff [UnicodeCase] [SerdeJson] {answer : Answer}
    (hsilent : ∀ reply, answer = .waited reply → ¬ FinalReply reply) :
    (∃ failure, answer.failure = some failure ∧ isPaymentUnresolved true failure.rawMessage
      failure.errorText failure.details = true) ↔ answer.Pending := by
  cases answer with
  | refused failure => simp [Answer.failure, Answer.Pending, Marked]
  | waited reply =>
    cases reply with
    | error failure => simp [Answer.failure, Answer.Pending, PendingReply, Marked]
    | ok paid =>
      cases hstatus : incompleteStatus paid with
      | some text =>
        obtain ⟨rfl, hpending⟩ := pending_of_unfinal (hsilent _ rfl) hstatus
        refine ⟨fun _ => hpending, fun _ => ⟨_, by simp [Answer.failure, hstatus]; rfl, ?_⟩⟩
        exact unresolved_pending
      | none =>
        constructor
        · rintro ⟨_, hfailure, _⟩
          simp [Answer.failure, hstatus] at hfailure
        · rintro ⟨members, rfl, hpending⟩
          have hcompleted := incompleteStatus_none hstatus members rfl
          simp [hpending] at hcompleted

/-- A payment of unknown fate is kept exactly when its failing reply was told as pending. -/
theorem unreported_kept_iff [UnicodeCase] [SerdeJson] (rpc : PaymentRpc ω) (mode : PaymentMode)
    (req : ExecuteRequest) (world : ω) (hamounts : ∀ hop ∈ req.route, InI64 hop.amountMsat)
    {hash : String} (h : Unreported hash (execute rpc mode req (.start world)).2.calls) :
    Kept (execute rpc mode req (.start world)).1 (execute rpc mode req (.start world)).2 ↔
      ToldPending hash (execute rpc mode req (.start world)).2.calls := by
  obtain ⟨route, bolt11, paymentSecret, reply, hsent⟩ := h.sent
  cases execute_end rpc mode req world hamounts with
  | unsent hnone => exact absurd rfl (List.countP_eq_zero.mp hnone _ hsent)
  | sent hash' answer s hcalls hcleaned hkept =>
    obtain rfl := hcalls.hash_eq ((hcleaned.mem_iff rfl).mp hsent)
    rw [hkept, hcalls.toldPending_iff hcleaned]
    apply Answer.unresolved_iff
    rintro reply rfl
    apply h.silent sendpayTimeoutSec reply
    apply (hcleaned.mem_iff rfl).mpr
    generalize hcs : s.calls = cs at hcalls
    cases hcalls
    simp

section LostReply

def circularRequest : ExecuteRequest :=
  { route := [⟨"02aa", "1x1x1", 0, 40, 100500⟩, ⟨"03ff", "2x2x2", 1, 18, 100000⟩]
    amountSats := 100
    sourceChannelId := "1x1x1"
    destChannelId := "2x2x2"
    maxFeeSats := 1
    ourId := "03ff"
    nowMs := 1700000000000 }

/-- The node takes the payment, and the wait for it fails with the given message. -/
def lostReply (message : String) : PaymentRpc Unit :=
  { invoice := fun _ _ _ _ => (.ok (.obj [("bolt11", .str "lnbc1"), ("payment_hash", .str "ab"),
      ("payment_secret", .str "cd")]), ())
    sendpay := fun _ _ _ _ _ => (.ok (.obj [("status", .str "pending")]), ())
    waitsendpay := fun _ _ _ => (.error ⟨message⟩, ())
    delpay := fun _ _ _ => (.ok (), ())
    delinvoice := fun _ _ _ => (.ok (), ()) }

@[reducible] def plainText : SerdeJson := ⟨fun _ => none, fun _ => ""⟩

def lostRun (message : String) : Outcome Empty ExecutionResult × ExecState Unit :=
  @execute Unit asciiCase plainText (lostReply message) .live circularRequest (.start ())

def paysHash (hash : String) : RpcCall → Bool
  | .sendpay _ paymentHash _ _ _ => paymentHash = hash
  | _ => false

def isPaidReply : RpcCall → Bool
  | .waitsendpay _ _ (.ok _) => true
  | _ => false

def waitFails (message : String) : RpcCall → Bool
  | .waitsendpay "ab" _ (.error failure) => failure.message = message
  | _ => false

/-- Where no text reads as JSON, failures alone report nothing. -/
theorem unreported_of_failures {hash : String} {calls : List RpcCall}
    (hpays : calls.any (paysHash hash) = true) (hfails : calls.any isPaidReply = false) :
    @Unreported plainText hash calls := by
  refine @Unreported.mk plainText hash calls ?_ ?_
  · obtain ⟨c, hc, hpay⟩ := List.any_eq_true.mp hpays
    cases c with
    | sendpay route paymentHash bolt11 paymentSecret reply =>
      obtain rfl := of_decide_eq_true hpay
      exact ⟨route, bolt11, paymentSecret, reply, hc⟩
    | invoice | waitsendpay | delpay | delinvoice => cases hpay
  · intro timeoutSecs reply hc
    cases reply with
    | ok paid => exact absurd rfl (List.any_eq_false.mp hfails _ hc)
    | error failure =>
      rintro ⟨err, _, hparse, _⟩
      cases hparse

/-- The connection closes after the request was written: both cleanup calls go out. -/
theorem closed_connection_cleans_up :
    @Unreported plainText "ab"
        (lostRun "waitsendpay: connection closed before a full reply").2.calls ∧
      ¬ Kept (lostRun "waitsendpay: connection closed before a full reply").1
        (lostRun "waitsendpay: connection closed before a full reply").2 ∧
      cleanups (lostRun "waitsendpay: connection closed before a full reply").2 = 2 := by
  have hcleanups :
      cleanups (lostRun "waitsendpay: connection closed before a full reply").2 = 2 := by
    decide +kernel
  refine ⟨unreported_of_failures (by decide +kernel) (by decide +kernel), ?_, hcleanups⟩
  rintro ⟨_, _, _, hkept⟩
  omega

/-- A proxy deadline is marked: the payment is kept. -/
theorem rpc_timeout_kept :
    Kept (lostRun "rpc timeout after 60s awaiting waitsendpay reply").1
      (lostRun "rpc timeout after 60s awaiting waitsendpay reply").2 := by
  refine (@unreported_kept_iff Unit asciiCase plainText _ .live circularRequest () (by decide) "ab"
    (unreported_of_failures (by decide +kernel) (by decide +kernel))).mpr (Or.inr ?_)
  obtain ⟨c, hc, hfails⟩ := List.any_eq_true.mp (show
    (lostRun "rpc timeout after 60s awaiting waitsendpay reply").2.calls.any
      (waitFails "rpc timeout after 60s awaiting waitsendpay reply") = true by decide +kernel)
  unfold waitFails at hfails
  split at hfails
  · rename_i timeoutSecs failure
    obtain ⟨message⟩ := failure
    obtain rfl := of_decide_eq_true hfails
    have hmarked : @Marked asciiCase plainText
        ⟨"rpc timeout after 60s awaiting waitsendpay reply"⟩ := by
      unfold Marked
      decide +kernel
    exact ⟨timeoutSecs, _, hc, hmarked⟩
  · cases hfails

end LostReply

end UnknownOutcome
