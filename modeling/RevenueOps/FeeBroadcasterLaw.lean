import RevenueOps.FeeBroadcaster

/-! What a batch may put on the socket: whatever the clock, the store and the node answer, and
whatever other batches do in between. -/
namespace FeeBroadcaster

open FallibleState SqlTransaction FeeRunway InteractiveProgram JsonValue

section Kinds

def IsSend (op : Op) : Prop := ∃ params, op = .setchannel params

def IsStart (op : Op) : Prop :=
  op = .loadPoisoned ∨ op = .instantNow ∨ op = .store .activeExecutionQuarantine

def writes (log : List (Event Op Reply)) : List Json :=
  log.filterMap fun e =>
    match e.op with
    | .setchannel params => some params
    | _ => none

@[simp] theorem writes_nil : writes [] = [] := rfl

@[simp] theorem writes_append (log more : List (Event Op Reply)) :
    writes (log ++ more) = writes log ++ writes more := List.filterMap_append

theorem writes_of_not_send {e : Event Op Reply} (h : ¬ IsSend e.op) : writes [e] = [] := by
  obtain ⟨op, r⟩ := e
  cases op with
  | setchannel params => exact absurd ⟨params, rfl⟩ h
  | _ => rfl

theorem writes_eq_nil {log : List (Event Op Reply)} (h : ∀ e ∈ log, ¬ IsSend e.op) :
    writes log = [] := by
  induction log with
  | nil => rfl
  | cons e log ih =>
    rw [← List.singleton_append, writes_append, writes_of_not_send (h e (by simp)),
      ih fun d hd => h d (List.mem_cons_of_mem e hd)]
    rfl

end Kinds

section Exits

def IsGuarded (op : Op) : Prop := IsSend op ∨ IsStart op

theorem not_guarded_nowUnix : ¬ IsGuarded .nowUnix := by simp [IsGuarded, IsSend, IsStart]

theorem not_guarded_storePoisoned : ¬ IsGuarded .storePoisoned := by
  simp [IsGuarded, IsSend, IsStart]

theorem not_guarded_store {c : StoreCommand} (h : c ≠ .activeExecutionQuarantine) :
    ¬ IsGuarded (.store c) := by simp [IsGuarded, IsSend, IsStart, h]

variable [StoreErrorText] {b : Broadcaster} {request : PersistedFeeRequest}

theorem avoids_budgeted {bad : Op → Prop} {n : ℕ} {what : String} {c : StoreCommand}
    (h : ¬ bad (.store c)) : (budgeted n what c).Avoids bad := ⟨h, fun _ => trivial⟩

theorem avoids_recordResult {id : ℕ} {outcome : BroadcastAttemptOutcome} {detail : Option String} :
    (recordResult b id outcome detail).Avoids IsGuarded :=
  (Prog.avoids_perform not_guarded_nowUnix).bind fun _ =>
    avoids_budgeted (not_guarded_store (by simp))

theorem avoids_quarantine {detail : String} :
    (quarantine b request detail).Avoids IsGuarded := by
  refine (Prog.avoids_perform not_guarded_nowUnix).bind fun _ => ?_
  exact (avoids_budgeted (not_guarded_store (by simp))).bind fun _ => trivial

theorem avoids_resultPersistenceUnknown {rpcOutcome detail : String} :
    (resultPersistenceUnknown b request rpcOutcome detail).Avoids IsGuarded :=
  (Prog.avoids_perform not_guarded_storePoisoned).bind fun _ =>
    avoids_quarantine.bind fun _ => trivial

theorem avoids_recordTerminal {id : ℕ} {outcome : BroadcastAttemptOutcome} {rpcOutcome : String}
    {detail : Option String} {result : Except BroadcastError BatchRequestOutcome} :
    (recordTerminal b request id outcome rpcOutcome detail result).Avoids IsGuarded := by
  refine avoids_recordResult.bind fun recorded => ?_
  cases recorded with
  | error e => exact avoids_resultPersistenceUnknown.bind fun _ => trivial
  | ok _ => trivial

theorem avoids_ambiguousExit {id : ℕ} {detail : String} :
    (ambiguousExit b request id detail).Avoids IsGuarded := by
  refine avoids_quarantine.bind fun quarantined => ?_
  cases quarantined with
  | error e => exact (Prog.avoids_perform not_guarded_storePoisoned).bind fun _ => trivial
  | ok _ =>
    refine avoids_recordResult.bind fun recorded => ?_
    cases recorded with
    | error e => exact (Prog.avoids_perform not_guarded_storePoisoned).bind fun _ => trivial
    | ok _ => trivial

theorem avoids_intentOutcomeUnknown : (intentOutcomeUnknown b request).Avoids IsGuarded :=
  (Prog.avoids_perform not_guarded_storePoisoned).bind fun _ =>
    avoids_quarantine.bind fun _ => trivial

end Exits

section Start

variable {b : Broadcaster}

theorem avoids_attemptSend {request : PersistedFeeRequest} :
    (attemptSend request).Avoids IsStart := by
  refine (Prog.avoids_perform (by simp [IsStart])).bind fun connected => ?_
  cases connected with
  | timedOut => trivial
  | failed text => trivial
  | connected =>
    refine (Prog.avoids_perform (by simp [IsStart])).bind fun handle => ?_
    exact (Prog.avoids_perform (by simp [IsStart])).bind fun _ => trivial

variable [StoreErrorText]

theorem avoids_sendRecorded {request : PersistedFeeRequest} {id : ℕ} :
    (sendRecorded b request id).Avoids IsStart := by
  refine avoids_attemptSend.bind fun outcome => ?_
  cases outcome with
  | ambiguous detail => exact avoids_ambiguousExit.mono fun _ => .inr
  | _ => exact avoids_recordTerminal.mono fun _ => .inr

variable [SerdeJson]

theorem avoids_broadcastRequest {request : PersistedFeeRequest} :
    (broadcastRequest b request).Avoids IsStart := by
  refine (Prog.avoids_perform (by simp [IsStart])).bind fun submittedAt => ?_
  refine (Prog.avoids_perform (by simp [IsStart])).bind fun admitted => ?_
  rcases admitted with refused | (_ | id) | _
  · trivial
  · trivial
  · exact avoids_sendRecorded
  · exact avoids_intentOutcomeUnknown.mono fun _ => .inr

theorem avoids_broadcastRequests {requests : List PersistedFeeRequest} :
    ∀ outcomes, (broadcastRequests b requests outcomes).Avoids IsStart := by
  induction requests with
  | nil => exact fun _ => trivial
  | cons request requests ih =>
    intro outcomes
    refine avoids_broadcastRequest.bind fun result => ?_
    cases result with
    | error e => trivial
    | ok outcome => exact ih _

/-- The answers to the first reads with which a batch goes on to its requests. -/
def Passes (authorization : LiveBatchAuthorization) : Event Op Reply → Prop
  | ⟨.loadPoisoned, r⟩ => r = false
  | ⟨.instantNow, now⟩ =>
      now - authorization.mintedAt ≤ authorizationDispatchFreshness * nanosPerSecond
  | ⟨.store .activeExecutionQuarantine, r⟩ => r = .replied (.ok none)
  | _ => True

variable {authorization : LiveBatchAuthorization} {requests : List PersistedFeeRequest}

def afterRead (b : Broadcaster) (requests : List PersistedFeeRequest)
    (wait : StoreReceiptWait (Option QuarantineRow)) :
    Broadcast (Except BroadcastError BatchReceipt) :=
  match budgetedReply b.storeBudget "the send-path active-quarantine read" wait with
  | .error detail => .ret (.error (.persistence detail))
  | .ok (some _) => .ret (.error .quarantined)
  | .ok none => broadcastRequests b requests []

theorem broadcastBatch_eq : broadcastBatch b authorization requests =
    .call .loadPoisoned fun poisoned =>
      if poisoned then .ret (.error .poisoned) else
      .call .instantNow fun now =>
        if authorizationDispatchFreshness * nanosPerSecond < now - authorization.mintedAt then
          .ret (.error (.authorizationStale ((now - authorization.mintedAt) / nanosPerSecond)
            authorizationDispatchFreshness)) else
        .call (.store .activeExecutionQuarantine) (afterRead b requests) := rfl

theorem afterRead_refuses {wait : StoreReceiptWait (Option QuarantineRow)}
    (h : wait ≠ .replied (.ok none)) : ∃ e, afterRead b requests wait = .ret (.error e) := by
  rcases wait with (e | _ | q) | _
  · exact ⟨_, rfl⟩
  · exact absurd rfl h
  · exact ⟨_, rfl⟩
  · exact ⟨_, rfl⟩

theorem avoids_afterRead {wait : StoreReceiptWait (Option QuarantineRow)} :
    (afterRead b requests wait).Avoids IsStart := by
  by_cases h : wait = .replied (.ok none)
  · subst h
    exact avoids_broadcastRequests []
  · obtain ⟨e, he⟩ := afterRead_refuses h
    rw [he]
    trivial

theorem gated_quarantine : (broadcastBatch b authorization requests).Gated
    (· = .store .activeExecutionQuarantine) IsSend (Passes authorization) := by
  rw [broadcastBatch_eq]
  refine ⟨by simp [IsSend], by simp, fun _ poisoned => ?_⟩
  cases poisoned with
  | true => trivial
  | false =>
    refine ⟨by simp [IsSend], by simp, fun _ now => ?_⟩
    by_cases hage : authorizationDispatchFreshness * nanosPerSecond < now - authorization.mintedAt
    · simp only [if_pos hage]
      trivial
    · simp only [if_neg hage]
      refine ⟨by simp [IsSend], fun _ wait => ⟨avoids_afterRead.mono fun op hop => ?_,
        fun hfail => ?_⟩,
        by simp⟩
      · exact .inr (.inr hop)
      · obtain ⟨e, he⟩ := afterRead_refuses hfail
        rw [he]
        trivial

theorem gated_age : (broadcastBatch b authorization requests).Gated
    (· = .instantNow) IsSend (Passes authorization) := by
  rw [broadcastBatch_eq]
  refine ⟨by simp [IsSend], by simp, fun _ poisoned => ?_⟩
  cases poisoned with
  | true => trivial
  | false =>
    refine ⟨by simp [IsSend], fun _ now => ?_, by simp⟩
    by_cases hage : authorizationDispatchFreshness * nanosPerSecond < now - authorization.mintedAt
    · simp only [if_pos hage]
      exact ⟨trivial, fun _ => trivial⟩
    · simp only [if_neg hage]
      refine ⟨⟨by simp, fun wait => avoids_afterRead.mono fun op hop => .inr (.inl hop)⟩,
        fun hfail => absurd (Nat.le_of_not_lt hage) hfail⟩

theorem gated_poisoned : (broadcastBatch b authorization requests).Gated
    (· = .loadPoisoned) IsSend (Passes authorization) := by
  rw [broadcastBatch_eq]
  refine ⟨by simp [IsSend], fun _ poisoned => ?_, by simp⟩
  cases poisoned with
  | true => exact ⟨trivial, fun _ => trivial⟩
  | false =>
    refine ⟨⟨by simp, fun now => ?_⟩, fun hfail => absurd rfl hfail⟩
    by_cases hage : authorizationDispatchFreshness * nanosPerSecond < now - authorization.mintedAt
    · simp only [if_pos hage]
      trivial
    · simp only [if_neg hage]
      exact ⟨by simp, fun wait => avoids_afterRead.mono fun op hop => .inl hop⟩

/-- A first read that does not pass is the end of the batch, before anything is sent. -/
theorem refused_batch_sends_nothing {log : List (Event Op Reply)}
    {q : Broadcast (Except BroadcastError BatchReceipt)}
    (h : Path (broadcastBatch b authorization requests) log q) {e : Event Op Reply} (he : e ∈ log)
    (hfail : ¬ Passes authorization e) : ∀ d ∈ log, ¬ IsSend d.op := by
  obtain ⟨op, r⟩ := e
  cases op with
  | loadPoisoned => exact gated_poisoned.path h he rfl hfail
  | instantNow => exact gated_age.path h he rfl hfail
  | store c =>
    cases c with
    | activeExecutionQuarantine => exact gated_quarantine.path h he rfl hfail
    | _ => exact absurd trivial hfail
  | _ => exact absurd trivial hfail

end Start

section Prefix

variable {b : Broadcaster} {request : PersistedFeeRequest}
  {base : List Json} {log : List (Event Op Reply)}

/-- So far the batch put on the socket what the base lists and then at most this request. -/
def AtMost (base : List Json) (request : PersistedFeeRequest)
    (log : List (Event Op Reply)) : Prop :=
  writes log = base ∨ writes log = base ++ [request.toParams]

theorem writes_snoc {e : Event Op Reply} (h : ¬ IsSend e.op) (ws : List Json) :
    writes log = ws → writes (log ++ [e]) = ws := by
  intro hlog
  rw [writes_append, writes_of_not_send h, List.append_nil, hlog]

theorem logs_guarded {α : Type} {m : Broadcast α} {ws : List Json} (hm : m.Avoids IsGuarded)
    (hlog : writes log = ws) : m.Logs (fun l => writes l = ws) (fun _ l => writes l = ws) log :=
  (hm.mono fun _ => Or.inl).logs hlog fun _ _ he => writes_snoc he ws

variable [StoreErrorText]

theorem logs_recordTerminal {id : ℕ} {outcome : BroadcastAttemptOutcome} {rpcOutcome : String}
    {detail : Option String} {result : Except BroadcastError BatchRequestOutcome} {ws : List Json}
    (hlog : writes log = ws) :
    (recordTerminal b request id outcome rpcOutcome detail result).Logs (fun l => writes l = ws)
      (fun r l => writes l = ws ∧ ∀ o, r = .ok o → result = .ok o) log := by
  refine Prog.Logs.bind ((logs_guarded avoids_recordResult hlog).mono (fun _ h => h) ?_)
  intro recorded l _ hl
  cases recorded with
  | error e =>
    refine Prog.Logs.bind
      ((logs_guarded avoids_resultPersistenceUnknown hl).mono (fun _ h => h) ?_)
    intro error l' _ hl'
    exact ⟨hl', hl', fun o ho => by cases ho⟩
  | ok _ => exact ⟨hl, hl, fun o ho => ho⟩

theorem logs_ambiguousExit {id : ℕ} {detail : String} {ws : List Json} (hlog : writes log = ws) :
    (ambiguousExit b request id detail).Logs (fun l => writes l = ws)
      (fun r _ => ∀ o, r ≠ .ok o) log := by
  refine Prog.Logs.bind ((logs_guarded avoids_quarantine hlog).mono (fun _ h => h) ?_)
  intro quarantined l _ hl
  have hpoison : writes (l ++ [⟨.storePoisoned, ()⟩]) = ws :=
    writes_snoc (e := ⟨.storePoisoned, ()⟩) (by simp [IsSend]) ws hl
  cases quarantined with
  | error e => exact ⟨hl, fun _ => ⟨hpoison, fun o ho => by cases ho⟩⟩
  | ok _ =>
    refine Prog.Logs.bind ((logs_guarded avoids_recordResult hl).mono (fun _ h => h) ?_)
    intro recorded l' _ hl'
    cases recorded with
    | error e =>
      exact ⟨hl', fun _ => ⟨writes_snoc (e := ⟨.storePoisoned, ()⟩) (by simp [IsSend]) ws hl',
        fun o ho => by cases ho⟩⟩
    | ok _ => exact ⟨hl', fun o ho => by cases ho⟩

omit [StoreErrorText] in
/-- The socket is written at most once, and the answer is a success only after that. -/
theorem logs_attemptSend (hlog : writes log = base) :
    (attemptSend request).Logs (AtMost base request)
      (fun outcome l => ∀ value, outcome = .success value →
        writes l = base ++ [request.toParams]) log := by
  refine ⟨.inl hlog, fun connected => ?_⟩
  have hconnect : writes (log ++ [⟨.connect, connected⟩]) = base :=
    writes_snoc (by simp [IsSend]) base hlog
  cases connected with
  | timedOut => exact ⟨.inl hconnect, fun value hv => by cases hv⟩
  | failed text => exact ⟨.inl hconnect, fun value hv => by cases hv⟩
  | connected =>
    refine ⟨.inl hconnect, fun handle => ?_⟩
    have hsent : writes (log ++ [⟨.connect, .connected⟩] ++
        [⟨.setchannel request.toParams, handle⟩]) = base ++ [request.toParams] := by
      rw [writes_append, hconnect]
      rfl
    refine ⟨.inr hsent, fun reply => ?_⟩
    have hreply := writes_snoc (e := ⟨.response handle, reply⟩) (by simp [IsSend]) _ hsent
    exact ⟨.inr hreply, fun _ _ => hreply⟩

theorem logs_sendRecorded {id : ℕ} (hlog : writes log = base) :
    (sendRecorded b request id).Logs (AtMost base request)
      (fun result l => ∀ outcome, result = .ok outcome → writes l = base ++ [request.toParams])
      log := by
  refine Prog.Logs.bind ((logs_attemptSend hlog).mono (fun _ h => h) ?_)
  intro outcome l hl hsuccess
  have hkeep : ∀ l', writes l' = writes l → AtMost base request l' := by
    intro l' hl'
    unfold AtMost
    rw [hl']
    exact hl
  cases outcome with
  | success value =>
    refine (logs_recordTerminal rfl).mono hkeep ?_
    intro r l' _ hr o ho
    rw [hr.1]
    exact hsuccess value rfl
  | rejected detail =>
    refine (logs_recordTerminal rfl).mono hkeep ?_
    intro r l' _ hr o ho
    cases hr.2 o ho
  | cleanFailure detail =>
    refine (logs_recordTerminal rfl).mono hkeep ?_
    intro r l' _ hr o ho
    cases hr.2 o ho
  | ambiguous detail =>
      exact (logs_ambiguousExit rfl).mono hkeep fun r l' _ hr o ho => absurd ho (hr o)

theorem logs_intentOutcomeUnknown (hlog : writes log = base) :
    (intentOutcomeUnknown b request).Logs (fun l => writes l = base)
      (fun r _ => ∀ o, r ≠ .ok o) log := by
  refine ⟨hlog, fun done => ?_⟩
  have hpoison := writes_snoc (e := ⟨.storePoisoned, done⟩) (by simp [IsSend]) base hlog
  refine Prog.Logs.bind ⟨hpoison, ?_⟩
  refine Prog.Logs.bind ((logs_guarded avoids_quarantine hpoison).mono (fun _ h => h) ?_)
  exact fun _ l _ hl => ⟨hl, fun o ho => by cases ho⟩

variable [SerdeJson]

theorem logs_broadcastRequest (hlog : writes log = base) :
    (broadcastRequest b request).Logs (AtMost base request)
      (fun result l => ∀ outcome, result = .ok outcome → writes l = base ++ [request.toParams])
      log := by
  refine ⟨.inl hlog, fun submittedAt => ?_⟩
  have hnow := writes_snoc (e := ⟨.nowUnix, submittedAt⟩) (by simp [IsSend]) base hlog
  refine ⟨.inl hnow, fun admitted => ?_⟩
  have htry := writes_snoc
    (e := ⟨.tryStore (.insertBroadcastAttempt (broadcastIntent request submittedAt)), admitted⟩)
    (by simp [IsSend]) base hnow
  rcases admitted with refused | (_ | id) | _
  · exact ⟨.inl htry, fun o ho => by cases ho⟩
  · exact ⟨.inl htry, fun o ho => by cases ho⟩
  · exact logs_sendRecorded htry
  · refine (logs_intentOutcomeUnknown htry).mono (fun _ h => .inl h) ?_
    exact fun r l _ hr o ho => absurd ho (hr o)

theorem logs_broadcastRequests {requests : List PersistedFeeRequest} :
    ∀ {base : List Json} {log : List (Event Op Reply)} (outcomes : List BatchRequestOutcome),
      writes log = base →
      (broadcastRequests b requests outcomes).Logs
        (fun l => ∃ n, writes l = base ++ (requests.take n).map PersistedFeeRequest.toParams)
        (fun _ _ => True) log := by
  induction requests with
  | nil => exact fun outcomes hlog => ⟨⟨0, by simpa using hlog⟩, trivial⟩
  | cons request requests ih =>
    intro base log outcomes hlog
    refine Prog.Logs.bind ((logs_broadcastRequest hlog).mono ?_ ?_)
    · rintro l (hl | hl)
      · exact ⟨0, by simpa using hl⟩
      · exact ⟨1, by simpa using hl⟩
    · intro result l hmost hl
      cases result with
      | error e =>
        rcases hmost with hmost | hmost
        · exact ⟨⟨0, by simpa using hmost⟩, trivial⟩
        · exact ⟨⟨1, by simpa using hmost⟩, trivial⟩
      | ok outcome =>
        refine (ih (outcomes ++ [outcome]) (hl outcome rfl)).mono ?_ fun _ _ _ h => h
        rintro l' ⟨n, hn⟩
        exact ⟨n + 1, by simpa using hn⟩

/-- Whatever happens, a batch writes the first few of its requests, each once and in order. -/
theorem batch_writes_prefix {authorization : LiveBatchAuthorization}
    {requests : List PersistedFeeRequest} {log : List (Event Op Reply)}
    {q : Broadcast (Except BroadcastError BatchReceipt)}
    (h : Path (broadcastBatch b authorization requests) log q) :
    ∃ n, writes log = (requests.take n).map PersistedFeeRequest.toParams := by
  have hlogs : (broadcastBatch b authorization requests).Logs
      (fun l => ∃ n, writes l = (requests.take n).map PersistedFeeRequest.toParams)
      (fun _ _ => True) [] := by
    rw [broadcastBatch_eq]
    refine ⟨⟨0, rfl⟩, fun poisoned => ?_⟩
    cases poisoned with
    | true => exact ⟨⟨0, rfl⟩, trivial⟩
    | false =>
      refine ⟨⟨0, rfl⟩, fun now => ?_⟩
      by_cases hage : authorizationDispatchFreshness * nanosPerSecond < now - authorization.mintedAt
      · simp only [if_pos hage]
        exact ⟨⟨0, rfl⟩, trivial⟩
      · simp only [if_neg hage]
        refine ⟨⟨0, rfl⟩, fun wait => ?_⟩
        by_cases hwait : wait = .replied (.ok none)
        · subst hwait
          exact @logs_broadcastRequests b _ _ requests [] _ [] rfl
        · obtain ⟨e, he⟩ := afterRead_refuses hwait
          rw [he]
          exact ⟨⟨0, rfl⟩, trivial⟩
  simpa using (hlogs.path h).holds

end Prefix

section Authorization

variable [StoreErrorText]

structure Minted (candidateSha256 : String) (candidateStateGeneration : ℕ)
    (governorAuthorized : Bool) (ledgerReservationId : String) (log : List (Event Op Reply))
    (authorization : LiveBatchAuthorization) : Prop where
  hash : authorization.candidateSha256 = candidateSha256
  generation : authorization.stateGeneration = candidateStateGeneration
  unquarantined : ⟨.store .activeExecutionQuarantine, .replied (.ok none)⟩ ∈ log
  current : ⟨.store .currentStateGeneration, .replied (.ok candidateStateGeneration)⟩ ∈ log
  governor : governorAuthorized = true
  reservation : ledgerReservationId ≠ ""

theorem budgetedReply_ok {α : Type} {n : ℕ} {what : String} {wait : StoreReceiptWait α} {a : α}
    (h : budgetedReply n what wait = .ok a) : wait = .replied (.ok a) := by
  rcases wait with (e | v) | _
  · cases h
  · cases h
    rfl
  · cases h

theorem path_budgeted {α : Type} {n : ℕ} {what : String} {c : StoreCommand}
    {f : Except String c.Result → Broadcast α} {log : List (Event Op Reply)} {q : Broadcast α}
    (h : Path (budgeted n what c >>= f) log q) :
    (log = [] ∧ q = budgeted n what c >>= f) ∨ ∃ wait rest, log = ⟨.store c, wait⟩ :: rest ∧
      Path (f (budgetedReply n what wait)) rest q := path_call h

theorem authorize_mints {candidateSha256 : String} {candidateStateGeneration : ℕ} {now : ℤ}
    {governorAuthorized : Bool} {governorReasonCode ledgerReservationId : String}
    {log : List (Event Op Reply)} {authorization : LiveBatchAuthorization}
    (h : Path (authorize candidateSha256 candidateStateGeneration now governorAuthorized
      governorReasonCode ledgerReservationId) log (.ret (.ok authorization))) :
    Minted candidateSha256 candidateStateGeneration governorAuthorized ledgerReservationId log
      authorization := by
  obtain ⟨-, hret⟩ | ⟨checked, rest, rfl, h₁⟩ := path_budgeted h
  · cases hret
  cases hchecked : budgetedReply authorizeStoreBudget "the active-quarantine read" checked with
  | error detail =>
    rw [hchecked] at h₁
    cases (path_ret h₁).2
  | ok active =>
    rw [hchecked] at h₁
    obtain rfl := budgetedReply_ok hchecked
    cases active with
    | some q => cases (path_ret h₁).2
    | none =>
      obtain ⟨-, hret⟩ | ⟨generation, rest, rfl, h₂⟩ := path_budgeted h₁
      · cases hret
      cases hgeneration :
          budgetedReply authorizeStoreBudget "the state-generation read" generation with
      | error detail =>
        rw [hgeneration] at h₂
        cases (path_ret h₂).2
      | ok current =>
        obtain rfl := budgetedReply_ok hgeneration
        rw [hgeneration] at h₂
        dsimp only at h₂
        by_cases hstale : candidateStateGeneration ≠ current
        · rw [if_pos hstale] at h₂
          cases (path_ret h₂).2
        rw [if_neg hstale] at h₂
        cases governorAuthorized with
        | false => cases (path_ret h₂).2
        | true =>
          by_cases hreservation : ledgerReservationId = ""
          · simp only [hreservation, Bool.not_true, Bool.false_eq_true, if_false, if_true] at h₂
            cases (path_ret h₂).2
          simp only [hreservation, Bool.not_true, Bool.false_eq_true, if_false] at h₂
          obtain ⟨-, hret⟩ | ⟨bracket, rest, rfl, h₃⟩ := path_call h₂
          · cases hret
          cases bracket with
          | error reason => cases (path_ret h₃).2
          | ok second =>
            obtain ⟨-, hret⟩ | ⟨mintedAt, rest, rfl, h₄⟩ := path_call h₃
            · cases hret
            cases (path_ret h₄).2
            obtain rfl := not_ne_iff.mp hstale
            exact ⟨rfl, rfl, by simp, by simp, rfl, hreservation⟩

variable [SerdeJson]

/-- Whether a log has the read of a flag, a clock or a quarantine that ends a batch. -/
def Refused (authorization : LiveBatchAuthorization) (log : List (Event Op Reply)) : Prop :=
  ∃ e ∈ log, ¬ Passes authorization e

/-- An authorization is minted against the generation and the empty quarantine that the store
reports, and a batch sends nothing but its own requests, each at most once and in order. What is
sent depends on the authorization only through its age. -/
theorem authorized_batch_sends_its_requests {candidateSha256 : String}
    {candidateStateGeneration : ℕ} {now : ℤ} {governorAuthorized : Bool}
    {governorReasonCode ledgerReservationId : String} {minting : List (Event Op Reply)}
    {authorization : LiveBatchAuthorization}
    (hminted : Path (authorize candidateSha256 candidateStateGeneration now governorAuthorized
      governorReasonCode ledgerReservationId) minting (.ret (.ok authorization)))
    {b : Broadcaster} {requests : List PersistedFeeRequest} {log : List (Event Op Reply)}
    {q : Broadcast (Except BroadcastError BatchReceipt)}
    (hbatch : Path (broadcastBatch b authorization requests) log q) :
    Minted candidateSha256 candidateStateGeneration governorAuthorized ledgerReservationId minting
        authorization ∧
      (∃ n, writes log = (requests.take n).map PersistedFeeRequest.toParams) ∧
      (Refused authorization log → writes log = []) := by
  refine ⟨authorize_mints hminted, batch_writes_prefix hbatch, ?_⟩
  rintro ⟨e, he, hfail⟩
  exact writes_eq_nil (refused_batch_sends_nothing hbatch he hfail)

end Authorization

section Runs

def requestOf (requestId channelId : String) : PersistedFeeRequest where
  cycleId := none
  channelId := channelId
  requestId := requestId
  params := ⟨channelId, 0, 250, none, none⟩

/-- The compact text of a request's parameters without limits. -/
@[reducible] def paramsText : SerdeJson where
  fromStr := fun _ => none
  toString := fun params =>
    match params.get "id" with
    | some (.str id) => "\x7b\"feebase\":0,\"feeppm\":250,\"id\":\"" ++ id ++ "\"\x7d"
    | _ => "null"

@[reducible] def actorText : StoreErrorText where
  text := fun e =>
    match e with
    | .actorGone => "observer actor gone"
    | .replyDropped => "observer actor dropped reply"
    | .runway _ => "database is locked"

def freshHost : Host := ⟨.empty, [], false, []⟩

def fixedCommit (cycleId : String) : FeeCycleCommit where
  cycleId := cycleId
  startedAt := 100
  completedAt := 101
  sourceCommit := "0"
  binarySha256 := "0"
  stateRows := []
  requests := []
  governor := []
  ledger := []
  outcomes := []
  pendingSeed := none
  triggerReceipt := none

theorem fixed_batch_sends_its_requests :
    ∃ (minting log : List (Event Op Reply)) (authorization : LiveBatchAuthorization),
      Minted "sha" 0 true "hold" minting authorization ∧
      (∃ n, writes log = ([requestOf "r1" "1x1x1"].take n).map PersistedFeeRequest.toParams) ∧
      (Refused authorization log → writes log = []) ∧
      writes log = [(requestOf "r1" "1x1x1").toParams] := by
  let _ : SerdeJson := paramsText
  let _ : StoreErrorText := actorText
  have hminted : ∃ minting, Path (authorize "sha" 0 100 true "ok" "hold") minting
      (.ret (.ok ⟨"sha", 0, 7, "ok", "hold", 0⟩)) := by
    constructor
    apply Path.call (.replied (.ok none))
    apply Path.call (.replied (.ok 0))
    apply Path.call (.ok 7)
    exact .call 0 (.here _)
  have hbatch : ∃ log q, Path (broadcastBatch ⟨5⟩ ⟨"sha", 0, 7, "ok", "hold", 0⟩
      [requestOf "r1" "1x1x1"]) log q ∧ writes log = [(requestOf "r1" "1x1x1").toParams] := by
    apply Exists.intro
    apply Exists.intro
    constructor
    · apply Path.call (r := false)
      apply Path.call 0
      apply Path.call (.replied (.ok none))
      apply Path.call 100
      apply Path.call (.ok (.replied (.ok 1)))
      apply Path.call ConnectReply.connected
      exact .call 0 (.here _)
    · rfl
  obtain ⟨minting, hminting⟩ := hminted
  obtain ⟨log, q, hlog, hwrites⟩ := hbatch
  obtain ⟨h₁, h₂, h₃⟩ := authorized_batch_sends_its_requests hminting hlog
  exact ⟨minting, log, _, h₁, h₂, h₃, hwrites⟩

/-- Authorized for one batch at generation 0, used for another at generation 1. -/
theorem parked_authorization_sends_another_batch :
    ∃ (minting sending : List (World.Moment Op Reply Host)) (minted later : Host)
      (authorization : LiveBatchAuthorization) (final : Host) (q : Broadcast _),
      hostWorld.Run (@authorize actorText "sha" 0 100 true "ok" "hold") freshHost minting
        (.ret (.ok authorization)) minted ∧
      hostWorld.drifts minted later ∧ later.tables.currentGeneration = 1 ∧
      hostWorld.Run (@broadcastBatch paramsText actorText ⟨5⟩ authorization
        [requestOf "r2" "2x2x2"]) later sending q final ∧
      writes (sending.map World.Moment.event) = [(requestOf "r2" "2x2x2").toParams] ∧
      ∀ hash : List PersistedFeeRequest → String, Function.Injective hash →
        hash [requestOf "r1" "1x1x1"] = authorization.candidateSha256 →
          hash [requestOf "r2" "2x2x2"] ≠ authorization.candidateSha256 := by
  have hnone (s : Host) (h : s.tables.activeEntry = none) :
      hostWorld.answers (.store .activeExecutionQuarantine) s (.replied (.ok none)) s :=
    Awaited.receipt (Receipt.replied [] (congrArg (fun x => some (Except.ok x)) h))
  have hmint : ∃ minting, hostWorld.Run (@authorize actorText "sha" 0 100 true "ok" "hold")
      freshHost minting (.ret (.ok ⟨"sha", 0, 7, "ok", "hold", 0⟩)) freshHost := by
    constructor
    apply World.Run.answer (hnone freshHost rfl)
    apply World.Run.answer (r := .replied (.ok 0)) (Awaited.receipt (Receipt.replied [] rfl))
    apply World.Run.answer (r := .ok 7) rfl
    apply World.Run.answer (r := 0) rfl
    exact .here _ _
  have hsend : ∃ sending q final, hostWorld.Run (@broadcastBatch paramsText actorText ⟨5⟩
      ⟨"sha", 0, 7, "ok", "hold", 0⟩ [requestOf "r2" "2x2x2"])
      (freshHost.after (call (commitFeeCycle (fixedCommit "c1")) [] .empty).2) sending q final ∧
      writes (sending.map World.Moment.event) = [(requestOf "r2" "2x2x2").toParams] := by
    apply Exists.intro
    apply Exists.intro
    apply Exists.intro
    constructor
    · apply World.Run.answer (r := false)
      · exact ⟨rfl, rfl⟩
      apply World.Run.answer (r := 0)
      · exact rfl
      apply World.Run.answer
      · exact hnone _ rfl
      apply World.Run.answer (r := 102)
      · exact rfl
      apply World.Run.answer (r := .ok (.replied (.ok 1)))
      · exact Receipt.replied [] rfl
      apply World.Run.answer (r := .connected)
      · exact rfl
      apply World.Run.answer (r := 0)
      · exact ⟨rfl, rfl⟩
      exact .here _ _
    · rfl
  obtain ⟨minting, hminting⟩ := hmint
  obtain ⟨sending, q, final, hsending, hwrites⟩ := hsend
  refine ⟨minting, sending, freshHost, _, _, final, q, hminting,
    .commits (fixedCommit "c1") [], rfl, hsending, hwrites, ?_⟩
  intro hash hinj hfirst hsecond
  have heq := hinj (hfirst.trans hsecond.symm)
  exact absurd heq (by decide)

end Runs

end FeeBroadcaster
