import RevenueOps.BroadcastHost
import RevenueOps.FeeBroadcasterLaw

/-! Batches in flight at the same time on one broadcaster. The flag and the quarantine are read
once, at the start of a batch, so they stop what starts later and not what is under way. -/
namespace FeeBroadcaster

open FallibleState SqlTransaction FeeRunway InteractiveProgram JsonValue TaggedTrace

section Events

/-- The events after which a batch has made an ambiguous outcome known to others. -/
def Stops (e : Event Op Reply) : Prop :=
  e.op = .storePoisoned ∨
    ∃ entry id, e = ⟨.store (.insertExecutionQuarantine entry), .replied (.ok id)⟩

def Ambiguous (e : Event Op Reply) : Prop :=
  ∃ handle reply detail, e = ⟨.response handle, reply⟩ ∧ reply.classify = .ambiguous detail

def Failing (e : Event Op Reply) : Prop := Stops e ∨ Ambiguous e

inductive Sees : Event Op Reply → Event Op Reply → Prop where
  | flag (set : Unit) (read : Bool) : Sees ⟨.storePoisoned, set⟩ ⟨.loadPoisoned, read⟩
  | quarantine (entry : QuarantineEntry) (id : ℕ)
      (read : StoreReceiptWait (Option QuarantineRow)) :
      Sees ⟨.store (.insertExecutionQuarantine entry), .replied (.ok id)⟩
        ⟨.store .activeExecutionQuarantine, read⟩

end Events

section Logs

variable {log : List (Event Op Reply)} {e : Event Op Reply}

def Calm (log : List (Event Op Reply)) : Prop := ∀ e ∈ log, ¬ Failing e

def Settled (log : List (Event Op Reply)) : Prop :=
  ∀ before e after, log = before ++ e :: after → Failing e → ∀ d ∈ after, ¬ IsSend d.op

theorem Calm.settled (h : Calm log) : Settled log := by
  intro before e after hlog he
  exact absurd he (h e (by simp [hlog]))

theorem Calm.snoc (h : Calm log) (he : ¬ Failing e) : Calm (log ++ [e]) := by
  intro d hd
  rcases List.mem_append.mp hd with hd | hd
  · exact h d hd
  · rw [List.mem_singleton.mp hd]
    exact he

theorem Settled.snoc (h : Settled log) (he : ¬ IsSend e.op) : Settled (log ++ [e]) := by
  intro before d after hlog hd x hx
  rcases List.eq_nil_or_concat after with rfl | ⟨init, y, rfl⟩
  · cases hx
  · rw [List.concat_eq_append, ← List.cons_append, ← List.append_assoc] at hlog
    obtain ⟨hinit, hlast⟩ := List.append_inj' hlog rfl
    rw [List.concat_eq_append] at hx
    rcases List.mem_append.mp hx with hx | hx
    · exact h before d init hinit hd x hx
    · rw [List.mem_singleton.mp hx, ← List.singleton_inj.mp hlast]
      exact he

theorem Calm.settled_snoc (h : Calm log) (e : Event Op Reply) : Settled (log ++ [e]) := by
  intro before d after hlog hd x hx
  rcases List.eq_nil_or_concat after with rfl | ⟨init, y, rfl⟩
  · cases hx
  · rw [List.concat_eq_append, ← List.cons_append, ← List.append_assoc] at hlog
    obtain ⟨hinit, -⟩ := List.append_inj' hlog rfl
    exact absurd hd (h d (by simp [hinit]))

theorem settled_exit {α : Type} {m : Broadcast α} (hm : m.Avoids IsGuarded) (hlog : Settled log) :
    m.Logs Settled (fun _ => Settled) log :=
  (hm.mono fun _ => Or.inl).logs hlog fun _ _ he hl => hl.snoc he

theorem not_failing (hstop : ¬ Stops e) (hop : ∀ handle, e.op ≠ .response handle) :
    ¬ Failing e := by
  rintro (h | ⟨handle, reply, detail, rfl, -⟩)
  · exact hstop h
  · exact hop handle rfl

theorem not_stops (hpoison : e.op ≠ .storePoisoned)
    (hstore : ∀ entry, e.op ≠ .store (.insertExecutionQuarantine entry)) : ¬ Stops e := by
  rintro (h | ⟨entry, id, rfl⟩)
  · exact hpoison h
  · exact hstore entry rfl

theorem Calm.quiet (h : Calm log) (hpoison : e.op ≠ .storePoisoned)
    (hstore : ∀ entry, e.op ≠ .store (.insertExecutionQuarantine entry))
    (hop : ∀ handle, e.op ≠ .response handle) : Calm (log ++ [e]) :=
  h.snoc (not_failing (not_stops hpoison hstore) hop)

end Logs

section OwnBatch

variable {b : Broadcaster} {request : PersistedFeeRequest}
  {log : List (Event Op Reply)}

variable [StoreErrorText]

theorem calm_recordResult {id : ℕ} {outcome : BroadcastAttemptOutcome} {detail : Option String}
    (hlog : Calm log) :
    (recordResult b id outcome detail).Logs Settled (fun _ => Calm) log := by
  refine ⟨hlog.settled, fun now => ?_⟩
  have hnow : Calm (log ++ [⟨.nowUnix, now⟩]) := hlog.quiet (by simp) (by simp) (by simp)
  refine ⟨hnow.settled, fun wait => ?_⟩
  have hwait := hnow.quiet
    (e := ⟨.store (.recordBroadcastAttemptResult id outcome detail now), wait⟩) (by simp) (by simp)
    (by simp)
  exact ⟨hwait.settled, hwait⟩

theorem settled_recordTerminal {id : ℕ} {outcome : BroadcastAttemptOutcome} {rpcOutcome : String}
    {detail : Option String} {result : Except BroadcastError BatchRequestOutcome}
    (hlog : Calm log) :
    (recordTerminal b request id outcome rpcOutcome detail result).Logs Settled
      (fun r l => ∀ o, r = .ok o → Calm l) log := by
  refine Prog.Logs.bind ((calm_recordResult hlog).mono (fun _ h => h) ?_)
  intro recorded l _ hl
  cases recorded with
  | error e =>
    refine Prog.Logs.bind
      ((settled_exit avoids_resultPersistenceUnknown hl.settled).mono (fun _ h => h) ?_)
    exact fun _ l' _ hl' => ⟨hl', fun o ho => by cases ho⟩
  | ok _ => exact ⟨hl.settled, fun _ _ => hl⟩

theorem settled_ambiguousExit {id : ℕ} {detail : String} (hlog : Settled log) :
    (ambiguousExit b request id detail).Logs Settled (fun r l => ∀ o, r = .ok o → Calm l) log := by
  refine Prog.Logs.bind ((settled_exit avoids_quarantine hlog).mono (fun _ h => h) ?_)
  intro quarantined l _ hl
  cases quarantined with
  | error e =>
    exact ⟨hl, fun done => ⟨hl.snoc (by simp [IsSend]), fun o ho => by cases ho⟩⟩
  | ok _ =>
    refine Prog.Logs.bind ((settled_exit avoids_recordResult hl).mono (fun _ h => h) ?_)
    intro recorded l' _ hl'
    cases recorded with
    | error e =>
      exact ⟨hl', fun done => ⟨hl'.snoc (by simp [IsSend]), fun o ho => by cases ho⟩⟩
    | ok _ => exact ⟨hl', fun o ho => by cases ho⟩

omit [StoreErrorText] in
theorem settled_attemptSend (hlog : Calm log) :
    (attemptSend request).Logs Settled (fun outcome l =>
      Settled l ∧ ((∀ detail, outcome ≠ .ambiguous detail) → Calm l)) log := by
  refine ⟨hlog.settled, fun connected => ?_⟩
  have hconnect : Calm (log ++ [⟨.connect, connected⟩]) := hlog.quiet (by simp) (by simp) (by simp)
  cases connected with
  | timedOut => exact ⟨hconnect.settled, hconnect.settled, fun _ => hconnect⟩
  | failed text => exact ⟨hconnect.settled, hconnect.settled, fun _ => hconnect⟩
  | connected =>
    refine ⟨hconnect.settled, fun handle => ?_⟩
    have hsent := hconnect.quiet (e := ⟨.setchannel request.toParams, handle⟩) (by simp) (by simp)
      (by simp)
    refine ⟨hsent.settled, fun reply => ?_⟩
    have hreply := hsent.settled_snoc ⟨.response handle, reply⟩
    refine ⟨hreply, hreply, fun hclear => hsent.snoc ?_⟩
    rintro (hstop | ⟨_, reply, detail, heq, hreply⟩)
    · exact not_stops (by simp) (by simp) hstop
    · cases heq
      exact hclear detail hreply

theorem settled_sendRecorded {id : ℕ} (hlog : Calm log) :
    (sendRecorded b request id).Logs Settled (fun r l => ∀ o, r = .ok o → Calm l) log := by
  refine Prog.Logs.bind ((settled_attemptSend hlog).mono (fun _ h => h) ?_)
  rintro outcome l - ⟨hsettled, hcalm⟩
  cases outcome with
  | success value => exact settled_recordTerminal (hcalm (by simp))
  | rejected detail => exact settled_recordTerminal (hcalm (by simp))
  | cleanFailure detail => exact settled_recordTerminal (hcalm (by simp))
  | ambiguous detail => exact settled_ambiguousExit hsettled

theorem settled_intentOutcomeUnknown (hlog : Calm log) :
    (intentOutcomeUnknown b request).Logs Settled (fun r l => ∀ o, r = .ok o → Calm l) log := by
  refine ⟨hlog.settled, fun done => ?_⟩
  have hpoison := hlog.settled_snoc ⟨.storePoisoned, done⟩
  refine Prog.Logs.bind ⟨hpoison, ?_⟩
  refine Prog.Logs.bind ((settled_exit avoids_quarantine hpoison).mono (fun _ h => h) ?_)
  exact fun _ l _ hl => ⟨hl, fun o ho => by cases ho⟩

variable [SerdeJson]

theorem settled_broadcastRequest (hlog : Calm log) :
    (broadcastRequest b request).Logs Settled (fun r l => ∀ o, r = .ok o → Calm l) log := by
  refine ⟨hlog.settled, fun submittedAt => ?_⟩
  have hnow : Calm (log ++ [⟨.nowUnix, submittedAt⟩]) := hlog.quiet (by simp) (by simp) (by simp)
  refine ⟨hnow.settled, fun admitted => ?_⟩
  have htry := hnow.quiet
    (e := ⟨.tryStore (.insertBroadcastAttempt (broadcastIntent request submittedAt)), admitted⟩)
    (by simp) (by simp) (by simp)
  rcases admitted with refused | (_ | id) | _
  · exact ⟨htry.settled, fun _ _ => htry⟩
  · exact ⟨htry.settled, fun _ _ => htry⟩
  · exact settled_sendRecorded htry
  · exact settled_intentOutcomeUnknown htry

theorem settled_broadcastRequests {requests : List PersistedFeeRequest} :
    ∀ {log : List (Event Op Reply)} (outcomes : List BatchRequestOutcome), Calm log →
      (broadcastRequests b requests outcomes).Logs Settled (fun _ => Settled) log := by
  induction requests with
  | nil => exact fun _ hlog => ⟨hlog.settled, hlog.settled⟩
  | cons request requests ih =>
    intro log outcomes hlog
    refine Prog.Logs.bind ((settled_broadcastRequest hlog).mono (fun _ h => h) ?_)
    intro result l hl hcalm
    cases result with
    | error e => exact ⟨hl, hl⟩
    | ok outcome => exact ih (outcomes ++ [outcome]) (hcalm outcome rfl)

/-- A batch that met an ambiguous outcome or stopped the others sends nothing more itself. -/
theorem failing_batch_stops {authorization : LiveBatchAuthorization}
    {requests : List PersistedFeeRequest} {q : Broadcast (Except BroadcastError BatchReceipt)}
    (h : Path (broadcastBatch b authorization requests) log q) : Settled log := by
  have hlogs : (broadcastBatch b authorization requests).Logs Settled (fun _ => Settled) [] := by
    have hstart : Calm [] := by simp [Calm]
    rw [broadcastBatch_eq]
    refine ⟨hstart.settled, fun poisoned => ?_⟩
    have hload : Calm ([] ++ [⟨.loadPoisoned, poisoned⟩]) :=
      hstart.quiet (by simp) (by simp) (by simp)
    cases poisoned with
    | true => exact ⟨hload.settled, hload.settled⟩
    | false =>
      refine ⟨hload.settled, fun now => ?_⟩
      have hnow := hload.quiet (e := ⟨.instantNow, now⟩) (by simp) (by simp) (by simp)
      by_cases hage : authorizationDispatchFreshness * nanosPerSecond < now - authorization.mintedAt
      · simp only [if_pos hage]
        exact ⟨hnow.settled, hnow.settled⟩
      · simp only [if_neg hage]
        refine ⟨hnow.settled, fun wait => ?_⟩
        have hread := hnow.quiet (e := ⟨.store .activeExecutionQuarantine, wait⟩) (by simp)
          (by simp) (by simp)
        by_cases hwait : wait = .replied (.ok none)
        · subst hwait
          exact settled_broadcastRequests [] hread
        · obtain ⟨e, he⟩ := afterRead_refuses hwait
          rw [he]
          exact ⟨hread.settled, hread.settled⟩
  simpa using (hlogs.path h).holds

end OwnBatch

section Pool

variable [SerdeJson] [StoreErrorText] {κ : Type} [DecidableEq κ] {b : Broadcaster}
  {authorizations : κ → LiveBatchAuthorization} {requests : κ → List PersistedFeeRequest}
  {s t : Host} {qs ps : κ → Broadcast (Except BroadcastError BatchReceipt)}
  {log before middle after : List (κ × World.Moment Op Reply Host)} {i j : κ}
  {m check : World.Moment Op Reply Host}

omit [SerdeJson] [StoreErrorText] in
/-- The flag or the quarantine that a stop has set is still there at each later moment. -/
theorem seen_fails (h : hostWorld.PoolRun ps s
      (before ++ (j, m) :: (middle ++ (i, check) :: after)) qs t)
    (hsees : Sees m.event check.event) : ¬ Passes (authorizations i) check.event := by
  obtain ⟨u, us, hstop, hrest⟩ := h.split
  have hmem : (i, check) ∈ middle ++ (i, check) :: after := by simp
  obtain ⟨v, vs, hcheck, -⟩ := hrest.split
  obtain ⟨state, op, reply⟩ := m
  obtain ⟨later, op', reply'⟩ := check
  dsimp only at hsees hstop hcheck
  cases hsees with
  | flag set read =>
    have hset : u.poisoned = true := congrArg Host.poisoned hstop
    have hlater := hrest.keeps (drifts_poisoned true) (fun _ _ _ _ hs hr => answers_poisoned hr hs)
      hset _ hmem
    intro hpasses
    have hread : read = later.poisoned := hcheck.1
    rw [hread, hlater] at hpasses
    cases hpasses
  | quarantine entry id read =>
    have hset : u.tables.Quarantined := inserted_quarantines hstop
    have hlater := hrest.keeps drifts_quarantined
      (fun _ _ _ _ hs hr => answers_quarantined hr hs) hset _ hmem
    intro hpasses
    exact read_of_quarantined hlater hcheck hpasses

/-- However the steps of the batches interleave: one that failed sends nothing more, and one that
looks at the flag or at the quarantine after another has set it sends nothing at all. -/
theorem later_batches_send_nothing
    (h : hostWorld.PoolRun (fun k => broadcastBatch b (authorizations k) (requests k)) s log qs t) :
    (∀ before j m after, log = before ++ (j, m) :: after → Failing m.event →
      ∀ d, (j, d) ∈ after → ¬ IsSend d.event.op) ∧
    (∀ before j m middle i check after,
      log = before ++ (j, m) :: (middle ++ (i, check) :: after) → Sees m.event check.event →
        ∀ d, (i, d) ∈ log → ¬ IsSend d.event.op) := by
  constructor
  · rintro before j m after rfl hfailing d hd
    have hown := failing_batch_stops (h.path j)
    rw [project_append, project_cons_self, List.map_append, List.map_cons] at hown
    exact hown _ _ _ rfl hfailing d.event (List.mem_map_of_mem (mem_project.mpr hd))
  · rintro before j m middle i check after rfl hsees d hd
    have hcheck :
        check.event ∈ (project i (before ++ (j, m) :: (middle ++ (i, check) :: after))).map
        World.Moment.event := List.mem_map_of_mem (mem_project.mpr (by simp))
    exact refused_batch_sends_nothing (h.path i) hcheck (seen_fails h hsees) d.event
      (List.mem_map_of_mem (mem_project.mpr hd))

end Pool

section InFlight

def fixedAuthorization : LiveBatchAuthorization := ⟨"sha", 0, 7, "ok", "hold", 0⟩

def twoBatches (second : Bool) : Broadcast (Except BroadcastError BatchReceipt) :=
  @broadcastBatch paramsText actorText ⟨5⟩ fixedAuthorization
    [bif second then requestOf "r2" "2x2x2" else requestOf "r1" "1x1x1"]

theorem step_batch (k : Bool) (op : Op) (r : Reply op)
    {ps qs : Bool → Broadcast (Except BroadcastError BatchReceipt)} {s t u : Host}
    {next : Reply op → Broadcast (Except BroadcastError BatchReceipt)}
    {log : List (Bool × World.Moment Op Reply Host)} (hk : ps k = .call op next)
    (h : hostWorld.answers op s r t)
    (rest : hostWorld.PoolRun (Function.update ps k (next r)) t log qs u) :
    hostWorld.PoolRun ps s ((k, ⟨s, op, r⟩) :: log) qs u := .answer k hk h rest

/-- Both pass their first reads; then one times out and inserts its quarantine, and the other
connects and sends. -/
theorem two_batches_run : ∃ log qs t, hostWorld.PoolRun twoBatches freshHost log qs t ∧
    ∃ stop send : World.Moment Op Reply Host, log[14]? = some (false, stop) ∧
      log[16]? = some (true, send) ∧ Stops stop.event ∧ IsSend send.event.op := by
  apply Exists.intro
  apply Exists.intro
  apply Exists.intro
  constructor
  · apply step_batch false .loadPoisoned false rfl
    · exact ⟨rfl, rfl⟩
    apply step_batch false .instantNow 0 rfl
    · exact rfl
    apply step_batch false (.store .activeExecutionQuarantine) (.replied (.ok none)) rfl
    · exact Awaited.receipt (Receipt.replied [] rfl)
    apply step_batch false .nowUnix 100 rfl
    · exact rfl
    apply step_batch false (.tryStore (.insertBroadcastAttempt _)) (.ok (.replied (.ok 1))) rfl
    · exact Receipt.replied [] rfl
    apply step_batch true .loadPoisoned false rfl
    · exact ⟨rfl, rfl⟩
    apply step_batch true .instantNow 0 rfl
    · exact rfl
    apply step_batch true (.store .activeExecutionQuarantine) (.replied (.ok none)) rfl
    · exact Awaited.receipt (Receipt.replied [] rfl)
    apply step_batch true .nowUnix 100 rfl
    · exact rfl
    apply step_batch true (.tryStore (.insertBroadcastAttempt _)) (.ok (.replied (.ok 2))) rfl
    · exact Receipt.replied [] rfl
    apply step_batch false .connect .connected rfl
    · exact rfl
    apply step_batch false (.setchannel _) 0 rfl
    · exact ⟨rfl, rfl⟩
    apply step_batch false (.response 0) .timedOut rfl
    · exact rfl
    apply step_batch false .nowUnix 105 rfl
    · exact rfl
    apply step_batch false (.store (.insertExecutionQuarantine _)) (.replied (.ok 1)) rfl
    · exact Awaited.receipt (Receipt.replied [] rfl)
    apply step_batch true .connect .connected rfl
    · exact rfl
    apply step_batch true (.setchannel _) 1 rfl
    · exact ⟨rfl, rfl⟩
    exact .here _ _
  · exact ⟨_, _, rfl, rfl, .inr ⟨_, _, rfl⟩, ⟨_, rfl⟩⟩

/-- A completed quarantine insert does not stop a batch that is past its first reads. -/
theorem batch_in_flight_sends_after_stop : ∃ log qs t,
    hostWorld.PoolRun twoBatches freshHost log qs t ∧
    ∃ (n k : ℕ) (i j : Bool) (stop send : World.Moment Op Reply Host), n < k ∧
      log[n]? = some (i, stop) ∧ log[k]? = some (j, send) ∧ Stops stop.event ∧
      IsSend send.event.op := by
  obtain ⟨log, qs, t, hrun, stop, send, hstop, hsend, hstops, hsends⟩ := two_batches_run
  exact ⟨log, qs, t, hrun, 14, 16, false, true, stop, send, by omega, hstop, hsend, hstops, hsends⟩

theorem timed_out_batch_sends_nothing_more : ∃ log qs t,
    hostWorld.PoolRun twoBatches freshHost log qs t ∧
    (∀ before j m after, log = before ++ (j, m) :: after → Failing m.event →
      ∀ d, (j, d) ∈ after → ¬ IsSend d.event.op) ∧
    (∀ before j m middle i check after,
      log = before ++ (j, m) :: (middle ++ (i, check) :: after) → Sees m.event check.event →
        ∀ d, (i, d) ∈ log → ¬ IsSend d.event.op) := by
  obtain ⟨log, qs, t, hrun, -⟩ := two_batches_run
  exact ⟨log, qs, t, hrun, @later_batches_send_nothing paramsText actorText Bool _ ⟨5⟩
    (fun _ => fixedAuthorization) _ _ _ _ _ hrun⟩

end InFlight

end FeeBroadcaster
