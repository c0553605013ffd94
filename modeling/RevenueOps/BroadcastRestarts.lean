import RevenueOps.BroadcastRecovery

/-! The process around the broadcaster: it starts one, lets it send batch after batch, crashes at
any step, and starts again on the tables that are left. -/
namespace FeeBroadcaster

open FallibleState SqlTransaction KeyedTable FeeRunway FeeTables InteractiveProgram JsonValue

variable [SerdeJson] [StoreErrorText]

inductive Phase where
  | down
  | starting (p : Broadcast (Except String Unit))
  | idle
  | calling (p : Broadcast (Except BroadcastError BatchReceipt))

structure Node where
  host : Host
  phase : Phase

def Host.crashed (s : Host) : Host := { s with queue := [], poisoned := false }

def Host.started (s : Host) : Host := { s with poisoned := false }

inductive Node.Step : Node → Node → Prop where
  | drift {s t : Host} (phase : Phase) (h : Drifts s t) : Step ⟨s, phase⟩ ⟨t, phase⟩
  | new {s : Host} {phase : Phase} (h : phase = .down ∨ phase = .idle) :
      Step ⟨s, phase⟩ ⟨s, .starting newBroadcaster⟩
  | newAnswer {op : Op} {next : Reply op → Broadcast (Except String Unit)} {r : Reply op}
      {s t : Host} (h : answers op s r t) :
      Step ⟨s, .starting (.call op next)⟩ ⟨t, .starting (next r)⟩
  | started (s : Host) : Step ⟨s, .starting (.ret (.ok ()))⟩ ⟨s.started, .idle⟩
  | refused (s : Host) (e : String) : Step ⟨s, .starting (.ret (.error e))⟩ ⟨s, .down⟩
  | batch (s : Host) (b : Broadcaster) (authorization : LiveBatchAuthorization)
      (requests : List PersistedFeeRequest) :
      Step ⟨s, .idle⟩ ⟨s, .calling (broadcastBatch b authorization requests)⟩
  | batchAnswer {op : Op} {next : Reply op → Broadcast (Except BroadcastError BatchReceipt)}
      {r : Reply op} {s t : Host} (h : answers op s r t) :
      Step ⟨s, .calling (.call op next)⟩ ⟨t, .calling (next r)⟩
  | returned (s : Host) (result : Except BroadcastError BatchReceipt) :
      Step ⟨s, .calling (.ret result)⟩ ⟨s, .idle⟩
  | crash (s : Host) (phase : Phase) : Step ⟨s, phase⟩ ⟨s.crashed, .down⟩

structure Node.Initial (n : Node) : Prop where
  attempts : n.host.tables.attempts.rows = []
  queue : n.host.queue = []
  wire : n.host.wire = []
  phase : n.phase = .down

inductive Node.Reachable : Node → Prop where
  | initial {n : Node} (h : n.Initial) : Reachable n
  | step {n m : Node} (h : Reachable n) (hstep : Step n m) : Reachable m

def Node.Invariant (n : Node) : Prop :=
  match n.phase with
  | .down => Durable n.host
  | .starting p => hostWorld.Safe Durable
      (fun result t => Durable t ∧ (result = .ok () → Guarded t)) p n.host
  | .idle => Resting n.host
  | .calling p => hostWorld.Safe Durable (fun _ => Resting) p n.host

variable {n m : Node} {s : Host}

omit [StoreErrorText] in
theorem Node.Invariant.durable (h : n.Invariant) : Durable n.host := by
  obtain ⟨s, phase⟩ := n
  cases phase with
  | down => exact h
  | starting p => exact World.Safe.holds h
  | idle => exact h.1
  | calling p => exact World.Safe.holds h

omit [StoreErrorText] in
theorem Durable.crashed (h : Durable s) : Durable s.crashed := by
  constructor
  · exact h.ahead
  · exact h.ledger.mono fun _ hc => absurd hc List.not_mem_nil
  · intro hdoubt
    obtain ⟨id, hid⟩ := h.standing hdoubt
    exact ⟨id, hid.mono fun _ hc => absurd hc List.not_mem_nil⟩

omit [StoreErrorText] in
theorem Guarded.started (h : Guarded s) : Resting s.started :=
  ⟨⟨h.1.ahead, h.1.ledger, h.1.standing⟩, fun hdoubt => .inr (h.2 hdoubt)⟩

omit [StoreErrorText] in
theorem Node.Initial.invariant (h : n.Initial) : n.Invariant := by
  obtain ⟨s, phase⟩ := n
  obtain ⟨hattempts, hqueue, hwire, hphase⟩ := h
  cases hphase
  constructor
  · intro w hw
    rw [hwire] at hw
    cases hw
  · rw [hqueue]
    refine ⟨fun r hr => ?_, fun c hc => absurd hc List.not_mem_nil,
      fun c hc => absurd hc List.not_mem_nil⟩
    rw [hattempts] at hr
    cases hr
  · rintro ⟨w, hw, -⟩
    rw [hwire] at hw
    cases hw

theorem step_invariant (h : n.Step m) (hn : n.Invariant) : m.Invariant := by
  have hdurable := hn.durable
  cases h with
  | drift phase h =>
    cases phase with
    | down => exact stable_durable _ _ hn h
    | starting p => exact World.Safe.star hn (.single h)
    | idle => exact stable_resting _ _ hn h
    | calling p => exact World.Safe.star hn (.single h)
  | new _ => exact safe_newBroadcaster hdurable
  | newAnswer h => exact (hn _ .refl).2 _ _ h
  | started s => exact ((hn s .refl).2.2 rfl).started
  | refused s e => exact hdurable
  | batch s b authorization requests => exact safe_broadcastBatch hn
  | batchAnswer h => exact (hn _ .refl).2 _ _ h
  | returned s result => exact (hn s .refl).2
  | crash s phase => exact hdurable.crashed

theorem reachable_invariant (h : n.Reachable) : n.Invariant := by
  induction h with
  | initial h => exact h.invariant
  | step _ hstep ih => exact step_invariant hstep ih

omit [SerdeJson] [StoreErrorText] in
theorem hostWorld_total (op : Op) (s : Host) : ∃ r t, hostWorld.answers op s r t := by
  cases op with
  | loadPoisoned => exact ⟨_, _, rfl, rfl⟩
  | storePoisoned => exact ⟨(), _, rfl⟩
  | instantNow => exact ⟨(0 : ℕ), s, rfl⟩
  | nowUnix => exact ⟨(0 : ℤ), s, rfl⟩
  | store c => exact ⟨.outcomeUnknown, _, .receipt .unknown⟩
  | tryStore c => exact ⟨.error .queueFull, s, rfl⟩
  | connect => exact ⟨.timedOut, s, rfl⟩
  | setchannel params => exact ⟨_, _, rfl, rfl⟩
  | response handle => exact ⟨.timedOut, _, rfl⟩
  | closeBracket now => exact ⟨.error .methodNotFound, s, rfl⟩

/-- The promises of the ledger in one state of the process. A call made there with a request in
doubt writes nothing at any step of it, and can only end in an error. -/
structure Node.WriteAhead (n : Node) : Prop where
  ahead : ∀ w ∈ n.host.wire, w.Ahead
  ambiguous : ∀ r ∈ n.host.tables.attempts.rows, r.outcome = some .ambiguous →
    n.host.tables.Quarantined
  stops : n.phase = .idle → InDoubt n.host.wire →
    ∀ (b : Broadcaster) (authorization : LiveBatchAuthorization)
      (requests : List PersistedFeeRequest) q t,
      hostWorld.Reaches (broadcastBatch b authorization requests) n.host q t →
        t.wire = n.host.wire ∧ (∀ result, q = .ret result → ∃ e, result = .error e) ∧
        ∃ e u, hostWorld.Reaches q t (.ret (.error e)) u

theorem Resting.stops (h : Resting s) (hdoubt : InDoubt s.wire) {b : Broadcaster}
    {authorization : LiveBatchAuthorization} {requests : List PersistedFeeRequest}
    {q : Broadcast (Except BroadcastError BatchReceipt)} {t : Host}
    (hq : hostWorld.Reaches (broadcastBatch b authorization requests) s q t) :
    t.wire = s.wire ∧ (∀ result, q = .ret result → ∃ e, result = .error e) ∧
      ∃ e u, hostWorld.Reaches q t (.ret (.error e)) u := by
  obtain ⟨log, hrun⟩ := hq
  have hsafe := (safe_blockedBatch b authorization requests (h.2 hdoubt) rfl).run hrun
  refine ⟨hsafe.holds, ?_, ?_⟩
  · rintro result rfl
    exact hsafe.result
  · obtain ⟨result, rest, u, hend⟩ := World.exists_result hostWorld_total q t
    obtain ⟨e, rfl⟩ := (hsafe.run hend).result
    exact ⟨e, u, rest, hend⟩

theorem ledger_is_write_ahead (h : n.Reachable) : n.WriteAhead := by
  have hn := reachable_invariant h
  have hdurable := hn.durable
  refine ⟨hdurable.ahead, hdurable.ledger.ambiguous,
    fun hidle hdoubt b authorization requests q t hq => ?_⟩
  obtain ⟨s, phase⟩ := n
  cases hidle
  exact Resting.stops hn hdoubt hq

theorem Node.Reachable.newAnswer (op : Op) (r : Reply op) {t : Host}
    {next : Reply op → Broadcast (Except String Unit)}
    (h : Node.Reachable ⟨s, .starting (.call op next)⟩) (hr : answers op s r t) :
    Node.Reachable ⟨t, .starting (next r)⟩ := h.step (.newAnswer hr)

theorem Node.Reachable.batchAnswer (op : Op) (r : Reply op) {t : Host}
    {next : Reply op → Broadcast (Except BroadcastError BatchReceipt)}
    (h : Node.Reachable ⟨s, .calling (.call op next)⟩) (hr : answers op s r t) :
    Node.Reachable ⟨t, .calling (next r)⟩ := h.step (.batchAnswer hr)

omit [SerdeJson] [StoreErrorText] in
/-- A crash between the write of a request and its reply, and the restart after it. -/
theorem interrupted_node : ∃ s, @Node.Reachable paramsText actorText ⟨s, .idle⟩ ∧
    InDoubt s.wire ∧ s.wire.length = 1 := by
  let _ : SerdeJson := paramsText
  let _ : StoreErrorText := actorText
  have hdown : Node.Reachable ⟨freshHost, .down⟩ := .initial ⟨rfl, rfl, rfl, rfl⟩
  have hclock := (hdown.step (.new (.inl rfl))).newAnswer .nowUnix 90 rfl
  have hnew := hclock.newAnswer (.store (.reconcileQuarantineOnRestart 90)) (.replied (.ok 0))
    (.receipt (.replied [] rfl))
  have hbatch := (hnew.step (.started _)).step
    (.batch _ ⟨5⟩ ⟨"sha", 0, 7, "ok", "hold", 0⟩ [requestOf "r1" "1x1x1"])
  have hflag := hbatch.batchAnswer .loadPoisoned false ⟨rfl, rfl⟩
  have hread := (hflag.batchAnswer .instantNow 0 rfl).batchAnswer
    (.store .activeExecutionQuarantine) (.replied (.ok none)) (.receipt (.replied [] rfl))
  have hintent := (hread.batchAnswer .nowUnix 100 rfl).batchAnswer
    (.tryStore (.insertBroadcastAttempt (broadcastIntent (requestOf "r1" "1x1x1") 100)))
    (.ok (.replied (.ok 1))) (.replied [] rfl)
  have hwrite := (hintent.batchAnswer .connect .connected rfl).batchAnswer
    (.setchannel (requestOf "r1" "1x1x1").toParams) 0 ⟨rfl, rfl⟩
  have hagain := ((hwrite.step (.crash _ _)).step (.new (.inl rfl))).newAnswer .nowUnix 200 rfl
  have hrestart := hagain.newAnswer (.store (.reconcileQuarantineOnRestart 200)) (.replied (.ok 1))
    (.receipt (.replied [] rfl))
  exact ⟨_, hrestart.step (.started _), ⟨_, List.mem_singleton_self _, .inl rfl⟩, rfl⟩

omit [SerdeJson] [StoreErrorText] in
theorem interrupted_node_is_write_ahead : ∃ s, @Node.WriteAhead paramsText actorText ⟨s, .idle⟩ ∧
    InDoubt s.wire ∧ s.wire.length = 1 := by
  obtain ⟨s, hreachable, hdoubt, hlength⟩ := interrupted_node
  exact ⟨s, @ledger_is_write_ahead paramsText actorText _ hreachable, hdoubt, hlength⟩

end FeeBroadcaster
