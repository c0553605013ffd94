import RevenueOps.RebalanceExecution
import RevenueOps.UnknownOutcome

/-! What the replies of the node say about one payment attempt, and the label that the executor
puts on its result. The label is all that the owner of a submission gets to see. -/
namespace PaymentVerdicts

open FallibleState JsonValue RouteExecutor RouteExecutorSafety RustText UnknownOutcome
open RebalanceExecution

variable {ω : Type}

section Replies

def issued (calls : List RpcCall) : List String :=
  calls.filterMap fun
    | .sendpay _ hash _ _ _ => some hash
    | _ => none

def Completes (hash : String) (calls : List RpcCall) : Prop :=
  ∃ timeoutSecs paid, RpcCall.waitsendpay hash timeoutSecs (.ok paid) ∈ calls ∧ Completed paid

/-- The node said of the payment that it failed: by an error with its own code, or by a status. -/
def FailsDefinitively [SerdeJson] (hash : String) (calls : List RpcCall) : Prop :=
  (∃ route bolt11 paymentSecret failure, RpcCall.sendpay route hash bolt11 paymentSecret
    (.error failure) ∈ calls ∧ FinalReply (.error failure)) ∨
  ∃ timeoutSecs reply, RpcCall.waitsendpay hash timeoutSecs reply ∈ calls ∧ FinalReply reply ∧
    ∀ paid, reply = .ok paid → ¬ Completed paid

/-- A payment call failed without a code of the node's own: nobody told the payment's fate. -/
def Lost [SerdeJson] (calls : List RpcCall) : Prop :=
  ∃ failure, ¬ FinalReply (.error failure) ∧
    ((∃ route hash bolt11 paymentSecret,
      RpcCall.sendpay route hash bolt11 paymentSecret (.error failure) ∈ calls) ∨
    ∃ hash timeoutSecs, RpcCall.waitsendpay hash timeoutSecs (.error failure) ∈ calls)

end Replies

section Verdict

inductive Verdict where
  | completed
  | pending
  | before
  | failed
  deriving DecidableEq, Repr

/-- A failure is unresolved, marked as that of an invoice, or one of the payment. -/
def ofFailure [UnicodeCase] (attempted : Bool) (failure : Failure) : Verdict :=
  if isPaymentUnresolved attempted failure.rawMessage failure.errorText failure.details then
    .pending
  else if (stripPrefix failure.rawMessage malformedInvoiceMarker).isSome then .before
  else .failed

def verdictOf [UnicodeCase] (attempted : Bool) : Option Failure → Verdict
  | none => .completed
  | some failure => ofFailure attempted failure

def answerOf : List RpcCall → Option Answer
  | [] => none
  | .sendpay _ _ _ _ (.error failure) :: _ => some (.refused failure)
  | .waitsendpay _ _ reply :: _ => some (.waited reply)
  | _ :: calls => answerOf calls

def invoiceFailure : List RpcCall → Option RpcFailure
  | .invoice _ _ _ (.error failure) :: _ => some failure
  | _ => none

/-- The verdict on one attempt: on its payment, or on the invoice that it did not get past. -/
def verdict [UnicodeCase] [SerdeJson] (calls : List RpcCall) : Verdict :=
  match answerOf calls with
  | some answer => verdictOf true answer.failure
  | none =>
    match invoiceFailure calls with
    | some failure => verdictOf false (some (Failure.fromRpc failure))
    | none => .before

/-- The label of an exit before the write. The gate's own text only comes from a dry run. -/
def PreWriteLabel (mode : PaymentMode) (error : String) : Prop :=
  (∃ pre ∈ preWritePrefixes, startsWith error pre = true) ∨
    (mode = .dryRun ∧ startsWith error dryrunGateSendpayDisabled = true)

def Labels (mode : PaymentMode) : Verdict → ExecutionResult → Prop
  | .completed, r => r.success = true ∧ r.paymentPending = false
  | .pending, r => r.success = false ∧ r.paymentPending = true
  | .before, r => r.success = false ∧ r.paymentPending = false ∧
    ∃ error, r.error = some error ∧ PreWriteLabel mode error
  | .failed, r => r.success = false ∧ r.paymentPending = false ∧
    ∃ error, r.error = some error ∧ startsWith error nativeSendpayErrorPrefix = true

theorem PreWriteLabel.extend {mode : PaymentMode} {error : String} (h : PreWriteLabel mode error)
    (note : String) : PreWriteLabel mode (error ++ note) := by
  rcases h with ⟨pre, hpre, h⟩ | ⟨hmode, h⟩
  · exact .inl ⟨pre, hpre, startsWith_extend h note⟩
  · exact .inr ⟨hmode, startsWith_extend h note⟩

/-- The label stays when the outcome does and the error at most gets a note at its end. -/
theorem Labels.shown {mode : PaymentMode} {v : Verdict} {reply r : ExecutionResult}
    (h : Labels mode v reply) (hsuccess : r.success = reply.success)
    (hpending : r.paymentPending = reply.paymentPending)
    (herror : r.error = reply.error ∨ ∃ note, r.error = some (reply.error.getD "" ++ note)) :
    Labels mode v r := by
  cases v with
  | completed => exact ⟨hsuccess.trans h.1, hpending.trans h.2⟩
  | pending => exact ⟨hsuccess.trans h.1, hpending.trans h.2⟩
  | before =>
    obtain ⟨hs, hp, error, he, hlabel⟩ := h
    refine ⟨hsuccess.trans hs, hpending.trans hp, ?_⟩
    rw [he] at herror
    rcases herror with hr | ⟨note, hr⟩
    · exact ⟨error, hr, hlabel⟩
    · exact ⟨_, hr, hlabel.extend note⟩
  | failed =>
    obtain ⟨hs, hp, error, he, hlabel⟩ := h
    refine ⟨hsuccess.trans hs, hpending.trans hp, ?_⟩
    rw [he] at herror
    rcases herror with hr | ⟨note, hr⟩
    · exact ⟨error, hr, hlabel⟩
    · exact ⟨_, hr, startsWith_extend hlabel note⟩

theorem Labels.success {mode : PaymentMode} {r : ExecutionResult} (h : Labels mode .completed r) :
    (classifyExecution r).cls = .success := classify_success h.1

theorem Labels.unknown {mode : PaymentMode} {r : ExecutionResult} (h : Labels mode .pending r) :
    (classifyExecution r).cls = .unknown := classify_pending h.1 h.2

theorem Labels.rejected {mode : PaymentMode} {r : ExecutionResult} (h : Labels mode .failed r) :
    (classifyExecution r).cls = .rejected := by
  obtain ⟨hs, hp, error, herror, hlabel⟩ := h
  rw [classify_failed hs hp herror, sendpay_not_preWrite hlabel, if_pos hlabel]
  rfl

theorem Labels.clean {mode : PaymentMode} {r : ExecutionResult} (h : Labels mode .before r) :
    (classifyExecution r).cls = .clean ∨
      (mode = .dryRun ∧ (classifyExecution r).cls = .unknown) := by
  obtain ⟨hs, hp, error, herror, ⟨pre, hpre, hlabel⟩ | ⟨hmode, hlabel⟩⟩ := h
  · refine .inl ?_
    rw [classify_failed hs hp herror, if_pos (clean_of_label hpre hlabel)]
  · have hpay : startsWith error nativeSendpayErrorPrefix = false :=
      not_startsWith hlabel (by decide) (by decide)
    rw [classify_failed hs hp herror, hpay]
    by_cases hclean : isPreWrite error = true
    · rw [if_pos hclean]
      exact .inl rfl
    · rw [if_neg hclean]
      exact .inr ⟨hmode, rfl⟩

end Verdict

section Conversation

theorem answerOf_dispatched {hash : String} {answer : Answer} {calls : List RpcCall}
    (h : Dispatched hash answer calls) : answerOf calls = some answer := by
  cases h <;> rfl

theorem answerOf_append {calls extra : List RpcCall} (h : ∀ c ∈ extra, isCleanup c = true) :
    answerOf (calls ++ extra) = answerOf calls := by
  have hextra : answerOf extra = none := by
    induction extra with
    | nil => rfl
    | cons c extra ih =>
      have hc := h c (by simp)
      have hrest := ih fun d hd => h d (List.mem_cons_of_mem c hd)
      cases c with
      | delpay | delinvoice => exact hrest
      | invoice | sendpay | waitsendpay => cases hc
  induction calls with
  | nil => exact hextra
  | cons c calls ih =>
    cases c with
    | sendpay route hash bolt11 secret reply =>
      cases reply with
      | error failure => rfl
      | ok sent => exact ih
    | waitsendpay => rfl
    | invoice | delpay | delinvoice => exact ih

theorem invoiceFailure_append {calls extra : List RpcCall} (hcalls : calls ≠ []) :
    invoiceFailure (calls ++ extra) = invoiceFailure calls := by
  cases calls with
  | nil => exact absurd rfl hcalls
  | cons c calls =>
    cases c with
    | invoice amountMsat label expiry reply => cases reply <;> rfl
    | sendpay | waitsendpay | delpay | delinvoice => rfl

theorem stripPrefix_append (pre rest : String) : (stripPrefix (pre ++ rest) pre).isSome = true := by
  unfold stripPrefix
  rw [if_pos (startsWith_append pre rest)]
  rfl

/-- The verdict is read off the failure that the attempt hands on, whatever is cleaned up after. -/
theorem verdict_talk [UnicodeCase] [SerdeJson] {attempted : Bool} {calls extra : List RpcCall}
    {failure : Option Failure} (h : Talk attempted calls failure)
    (hextra : ∀ c ∈ extra, isCleanup c = true) :
    verdict (calls ++ extra) = verdictOf attempted failure := by
  unfold verdict
  rw [answerOf_append hextra]
  cases h with
  | unbilled amountMsat label failure =>
    rw [invoiceFailure_append (by simp)]
    rfl
  | malformed amountMsat label invoice reason =>
    rw [invoiceFailure_append (by simp)]
    have hmarked : (stripPrefix (malformedInvoiceMarker ++ reason) malformedInvoiceMarker).isSome =
        true := stripPrefix_append _ _
    simp [answerOf, invoiceFailure, verdictOf, ofFailure, isPaymentUnresolved, Failure.internal,
      hmarked]
  | sent hash answer _ hcalls =>
    rw [answerOf_dispatched hcalls]

end Conversation

section Labels

theorem startsWith_assoc (pre text rest : String) : startsWith (pre ++ text ++ rest) pre = true :=
  startsWith_extend (startsWith_append pre text) rest

theorem invalidRouteResult_labels {req : ExecuteRequest} {reason : String} {feeMsat : ℤ}
    {r : ExecutionResult} (h : invalidRouteResult req reason feeMsat = some r)
    (mode : PaymentMode) :
    Labels mode .before r := by
  simp only [invalidRouteResult, Option.bind_eq_bind, Option.bind_eq_some_iff, Option.pure_def,
    Option.some.injEq] at h
  obtain ⟨_, _, rfl⟩ := h
  refine ⟨rfl, rfl, _, rfl, .inl ?_⟩
  by_cases hover : startsWith reason "route_over_budget" = true
  · rw [if_pos hover]
    exact ⟨nativeRouteOverBudgetPrefix, by simp [preWritePrefixes], startsWith_append _ _⟩
  · rw [if_neg hover]
    exact ⟨nativeRouteInvalidPrefix, by simp [preWritePrefixes], startsWith_append _ _⟩

theorem gatedResult_labels {req : ExecuteRequest} {plannedFeeMsat : ℤ} {r : ExecutionResult}
    (h : gatedResult req plannedFeeMsat = some r) : Labels .dryRun .before r := by
  simp only [gatedResult, Option.bind_eq_bind, Option.bind_eq_some_iff, Option.pure_def,
    Option.some.injEq] at h
  obtain ⟨_, _, rfl⟩ := h
  exact ⟨rfl, rfl, _, rfl, .inr ⟨rfl, by decide⟩⟩

theorem settledResult_labels {req : ExecuteRequest} {paid : Json} {r : ExecutionResult}
    (h : settledResult req paid = some r) (mode : PaymentMode) : Labels mode .completed r := by
  simp only [settledResult, Option.bind_eq_bind, Option.bind_eq_some_iff, Option.pure_def,
    Option.some.injEq] at h
  obtain ⟨_, _, _, _, _, _, _, _, rfl⟩ := h
  exact ⟨rfl, rfl⟩

theorem wp_settleFailure_labels [UnicodeCase] [SerdeJson] (rpc : PaymentRpc ω)
    (req : ExecuteRequest) (plannedFeeMsat : ℤ) (label : String) (failure : Failure)
    (mode : PaymentMode) (s : ExecState ω) :
    wp (settleFailure rpc req plannedFeeMsat label failure)
      ⟨fun r t => CleanedUp s t ∧ Labels mode (ofFailure s.paymentAttempted failure) r,
        fun _ _ => False, fun t => CleanedUp s t⟩ s := by
  unfold settleFailure ofFailure
  simp only [wp_bind, wp_read, Post.ofOk]
  refine wp_ite.mpr ⟨fun hunresolved => ?_, fun hresolved => ?_⟩
  · rw [if_pos hunresolved]
    refine (wp_checked _ _ _).mpr ⟨fun r hr => ⟨.refl s, ?_⟩, fun _ => .refl s⟩
    obtain ⟨_, _, hr⟩ := Option.bind_eq_some_iff.mp hr
    obtain rfl := Option.some.inj hr
    exact ⟨rfl, rfl⟩
  rw [if_neg hresolved]
  cases stripPrefix failure.rawMessage malformedInvoiceMarker with
  | some reason =>
    refine (wp_bind _ _ _ _).mpr (wp_mono (wp_cleanup_calls rpc "" label s) ?_
      (fun _ _ => False.elim) fun _ => False.elim)
    intro _ t ht
    refine (wp_pure _ _ _).mpr ⟨ht, rfl, rfl, _, rfl, .inl ?_⟩
    exact ⟨nativeInvoiceErrorPrefix, by simp [preWritePrefixes], startsWith_append _ _⟩
  | none =>
    refine (wp_bind _ _ _ _).mpr (wp_mono (wp_cleanup_calls rpc s.paymentHash label s) ?_
      (fun _ _ => False.elim) fun _ => False.elim)
    intro _ t ht
    refine (wp_bind _ _ _ _).mpr (wp_mono (wp_record_calls _ req t) ?_
      (fun _ _ => False.elim) fun _ => False.elim)
    intro _ u hu
    exact (wp_pure _ _ _).mpr ⟨ht.trans hu, rfl, rfl, _, rfl, startsWith_assoc _ _ _⟩

/-- The calls of a whole run: none, or those of an attempt and of its cleanup. -/
inductive Talked [SerdeJson] (mode : PaymentMode) : List RpcCall → Prop where
  | quiet : Talked mode []
  | live (attempted : Bool) (calls extra : List RpcCall) (failure : Option Failure) :
      mode = .live → Talk attempted calls failure → (∀ c ∈ extra, isCleanup c = true) →
      Talked mode (calls ++ extra)

structure Labelled [UnicodeCase] [SerdeJson] (mode : PaymentMode)
    (outcome : Outcome Empty ExecutionResult) (calls : List RpcCall) : Prop where
  talked : Talked mode calls
  label : ∀ r, outcome = .ok r → Labels mode (verdict calls) r

theorem Labelled.returned [UnicodeCase] [SerdeJson] {mode : PaymentMode}
    {calls : List RpcCall} (h : Talked mode calls) {r : ExecutionResult}
    (hr : Labels mode (verdict calls) r) : Labelled mode (.ok r) calls := by
  refine ⟨h, fun q hq => ?_⟩
  obtain rfl := Outcome.ok.inj hq
  exact hr

theorem Labelled.panicked [UnicodeCase] [SerdeJson] {mode : PaymentMode}
    {calls : List RpcCall} (h : Talked mode calls) : Labelled mode .panic calls := by
  refine ⟨h, fun q hq => ?_⟩
  cases hq

theorem execute_labelled [UnicodeCase] [SerdeJson] (rpc : PaymentRpc ω) (mode : PaymentMode)
    (req : ExecuteRequest) (world : ω) :
    Labelled mode (execute rpc mode req (.start world)).1
      (execute rpc mode req (.start world)).2.calls := by
  suffices hrun : wp (execute rpc mode req)
      (Post.ofRel fun outcome t => Labelled mode outcome t.calls) (.start world) from
    wp_ofRel.mp hrun
  unfold execute
  cases hroute : validateRoute req with
  | panic => exact (wp_panic _ _).mpr (.panicked .quiet)
  | err e =>
    exact (wp_checked _ _ _).mpr ⟨fun r hr => .returned .quiet (invalidRouteResult_labels hr mode),
      fun _ => .panicked .quiet⟩
  | ok plannedFeeMsat =>
    cases mode with
    | dryRun =>
      exact (wp_checked _ _ _).mpr ⟨fun r hr => .returned .quiet (gatedResult_labels hr),
        fun _ => .panicked .quiet⟩
    | live =>
      have hend : ∀ (s t : ExecState ω) failure, Talk s.paymentAttempted s.calls failure →
          CleanedUp s t → Talked .live t.calls ∧
            verdict t.calls = verdictOf s.paymentAttempted failure := by
        intro s t failure htalk ht
        obtain ⟨extra, hextra, hclean⟩ := ht
        rw [hextra]
        exact ⟨.live _ _ _ _ rfl htalk hclean, verdict_talk htalk hclean⟩
      refine (wp_bind _ _ _ _).mpr ((wp_attempt _ _ _).mpr ?_)
      refine wp_mono (wp_attemptPayment_talk rpc req _ world) ?_ ?_ ?_
      · intro paid t ht
        obtain ⟨htalked, hverdict⟩ := hend t t none ht (.refl t)
        refine (wp_checked _ _ _).mpr ⟨fun r hr => .returned htalked ?_, fun _ => .panicked htalked⟩
        rw [hverdict]
        exact settledResult_labels hr .live
      · intro failure t ht
        refine wp_mono (wp_settleFailure_labels rpc req plannedFeeMsat _ failure .live t) ?_
          (fun e => e.elim) fun u hu => .panicked (hend t u _ ht hu).1
        intro r u hu
        obtain ⟨htalked, hverdict⟩ := hend t u _ ht hu.1
        refine .returned htalked ?_
        rw [hverdict]
        exact hu.2
      · intro t ht
        refine .panicked ?_
        rw [ht]
        exact .quiet

end Labels

section Fates

def DefinitiveFailure [SerdeJson] : Answer → Prop
  | .refused failure => FinalReply (.error failure)
  | .waited reply => FinalReply reply ∧ ∀ paid, reply = .ok paid → ¬ Completed paid

structure Fate [SerdeJson] (calls : List RpcCall) (hash : String) (answer : Answer) : Prop where
  answered : answerOf calls = some answer
  sent : issued calls = [hash]
  completes : ∀ h, Completes h calls ↔ h = hash ∧
    ∃ paid, answer = .waited (.ok paid) ∧ Completed paid
  fails : ∀ h, FailsDefinitively h calls ↔ h = hash ∧ DefinitiveFailure answer
  lost : Lost calls ↔ ∃ failure, ¬ FinalReply (.error failure) ∧
    (answer = .refused failure ∨ answer = .waited (.error failure))

theorem issued_cleanup {extra : List RpcCall} (h : ∀ c ∈ extra, isCleanup c = true) :
    issued extra = [] := by
  rw [issued, List.filterMap_eq_nil_iff]
  intro c hc
  have hclean := h c hc
  cases c with
  | delpay | delinvoice => rfl
  | invoice | sendpay | waitsendpay => cases hclean

theorem unsent_cleanup {extra : List RpcCall} (hextra : ∀ c ∈ extra, isCleanup c = true) :
    (∀ route h bolt11 secret reply, .sendpay route h bolt11 secret reply ∉ extra) ∧
      ∀ h timeout reply, .waitsendpay h timeout reply ∉ extra :=
  ⟨fun _ _ _ _ _ h => Bool.noConfusion (hextra _ h), fun _ _ _ h => Bool.noConfusion (hextra _ h)⟩

theorem dispatched_fate [SerdeJson] {hash : String} {answer : Answer} {calls extra : List RpcCall}
    (h : Dispatched hash answer calls) (hextra : ∀ c ∈ extra, isCleanup c = true) :
    Fate (calls ++ extra) hash answer := by
  obtain ⟨hpay, hwait⟩ := unsent_cleanup hextra
  constructor
  · rw [answerOf_append hextra, answerOf_dispatched h]
  · have hextra : issued extra = [] := issued_cleanup hextra
    cases h <;> simpa [issued] using hextra
  · intro hash'
    cases h <;> simp [Completes, hwait, and_assoc, @eq_comm _ _ (Except.ok _)]
  · intro hash'
    cases h <;> simp [FailsDefinitively, DefinitiveFailure, hpay, hwait]
  · cases h
    · simp [Lost, hpay, hwait]
    · simp only [Lost, List.mem_append, List.mem_cons, hpay, hwait]
      simp [eq_comm]

structure Unsent [SerdeJson] (calls : List RpcCall) : Prop where
  sent : issued calls = []
  completes : ∀ h, ¬ Completes h calls
  lost : ¬ Lost calls

theorem Unsent.invoiced [SerdeJson] {extra : List RpcCall} (amountMsat : ℤ) (label : String)
    (reply : Except RpcFailure Json) (hextra : ∀ c ∈ extra, isCleanup c = true) :
    Unsent (.invoice amountMsat label invoiceExpirySec reply :: extra) := by
  obtain ⟨hpay, hwait⟩ := unsent_cleanup hextra
  constructor
  · have hnone : issued extra = [] := issued_cleanup hextra
    simpa [issued] using hnone
  · simp [Completes, hwait]
  · simp [Lost, hpay, hwait]

theorem verdictOf_failure [UnicodeCase] (attempted : Bool) (failure : Failure) :
    verdictOf attempted (some failure) ≠ .completed := by
  unfold verdictOf ofFailure
  dsimp only
  split
  · simp
  · split <;> simp

/-- A run of the executor sent nothing, or one payment whose fate its calls tell. -/
theorem Talked.fate [UnicodeCase] [SerdeJson] {mode : PaymentMode} {calls : List RpcCall}
    (h : Talked mode calls) : (Unsent calls ∧ verdict calls ≠ .completed) ∨
      (mode = .live ∧ ∃ hash answer, Fate calls hash answer) := by
  cases h with
  | quiet =>
    refine .inl ⟨⟨?_, ?_, ?_⟩, ?_⟩
    · rfl
    · simp [Completes]
    · simp [Lost]
    · simp [verdict, answerOf, invoiceFailure]
  | live attempted calls extra failure hmode htalk hextra =>
    rw [verdict_talk htalk hextra]
    cases htalk with
    | unbilled amountMsat label f => exact .inl ⟨.invoiced _ _ _ hextra, verdictOf_failure _ _⟩
    | malformed amountMsat label invoice reason =>
        exact .inl ⟨.invoiced _ _ _ hextra, verdictOf_failure _ _⟩
    | sent hash answer _ hcalls => exact .inr ⟨hmode, hash, answer, dispatched_fate hcalls hextra⟩

theorem not_completed_of_incomplete [SerdeJson] {paid : Json} {text : String}
    (h : incompleteStatus paid = some text) : ¬ Completed paid := by
  intro hcompleted
  unfold incompleteStatus at h
  cases paid with
  | obj members =>
    rcases hcompleted members rfl with hs | hs | hs
    · simp [hs] at h
    · simp [hs] at h
    · simp [hs] at h
  | _ => cases h

theorem Fate.verdict_eq [UnicodeCase] [SerdeJson] {calls : List RpcCall} {hash : String}
    {answer : Answer} (h : Fate calls hash answer) :
    verdict calls = verdictOf true answer.failure := by
  unfold verdict
  rw [h.answered]

/-- A payment is read as completed exactly when the wait for it says so. -/
theorem Fate.completed_iff [UnicodeCase] [SerdeJson] {calls : List RpcCall} {hash : String}
    {answer : Answer} (h : Fate calls hash answer) :
    verdict calls = .completed ↔ Completes hash calls := by
  rw [h.verdict_eq, h.completes]
  cases answer with
  | refused f => simp [Answer.failure, verdictOf_failure]
  | waited reply =>
    cases reply with
    | error f => simp [Answer.failure, verdictOf_failure]
    | ok paid =>
      cases hstatus : incompleteStatus paid with
      | none => simpa [Answer.failure, hstatus, verdictOf] using incompleteStatus_none hstatus
      | some text =>
        simpa [Answer.failure, hstatus, verdictOf_failure] using not_completed_of_incomplete hstatus

/-- A failed payment has failed definitively unless its failing reply carries no code. -/
theorem Fate.fails_iff [UnicodeCase] [SerdeJson] {calls : List RpcCall} {hash : String}
    {answer : Answer} (h : Fate calls hash answer)
    (hfailed : verdict calls = .before ∨ verdict calls = .failed) :
    FailsDefinitively hash calls ↔ ¬ Lost calls := by
  rw [h.verdict_eq] at hfailed
  rw [h.fails, h.lost]
  cases answer with
  | refused f => simp [DefinitiveFailure]
  | waited reply =>
    cases reply with
    | error f => simp [DefinitiveFailure]
    | ok paid =>
      have hstatus : ∃ text, incompleteStatus paid = some text := by
        rw [← Option.ne_none_iff_exists']
        intro hnone
        simp [Answer.failure, hnone, verdictOf] at hfailed
      obtain ⟨text, htext⟩ := hstatus
      have hfinal : FinalReply (.ok paid) := by
        by_contra hopen
        obtain ⟨rfl, -⟩ := pending_of_unfinal hopen htext
        have hunresolved : ofFailure true (Failure.internal ("waitsendpay_status=" ++ "pending")) =
            .pending := if_pos unresolved_pending
        have hfailure : Answer.failure (.waited (.ok paid)) =
            some (Failure.internal ("waitsendpay_status=" ++ "pending")) := by
          rw [Answer.failure, htext]
          rfl
        rw [hfailure, verdictOf, hunresolved] at hfailed
        simp at hfailed
      simp [DefinitiveFailure, hfinal, not_completed_of_incomplete htext]

theorem Fate.not_lost [UnicodeCase] [SerdeJson] {calls : List RpcCall} {hash : String}
    {answer : Answer} (h : Fate calls hash answer) (hcompleted : Completes hash calls) :
    ¬ Lost calls := by
  obtain ⟨-, paid, rfl, -⟩ := (h.completes hash).mp hcompleted
  rw [h.lost]
  simp

end Fates

end PaymentVerdicts
