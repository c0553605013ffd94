import RevenueOps.RebalanceOwner
import RevenueOps.SubmissionSoundness

/-! A manual submission before the engine with the native executor. The candidate of a submission
names no peers, so the engine turns it away before any payment, and the reservation is held. -/
namespace RebalanceOwner

open FallibleState InteractiveProgram JsonValue RebalanceEngine RebalanceExecution RebalanceRail
open RouteExecutor RustNumber RustText SqlTransaction WiredEngine

variable {ν : Type}

section Engine

inductive TurnedAway : ExecutionResult → Prop where
  | busy (amountSats : ℤ) : TurnedAway (failedResult engineBusy amountSats)
  | channels : TurnedAway (failedResult "invalid_channel_ids" 0)
  | peers : TurnedAway (failedResult "missing_peer_ids" 0)

theorem TurnedAway.held {r : ExecutionResult} (h : TurnedAway r) (requestId : String)
    (resolvedAt : ℤ) :
    (settlementFor (classifyExecution r) requestId resolvedAt).reservationStatus =
      .quarantined := by
  cases h <;> rfl

variable [UnicodeCase] [SerdeJson] (w : Wiring ν) (candidate : RebalanceCandidate)
  (kw : EngineKwargs)

theorem executeCandidateLocked_turnedAway (rebalanceId : Option ℤ) (s : EngineState (Site ν))
    (hpeer : candidate.primarySourcePeerId = "") :
    ∃ r, executeCandidateLocked w.deps candidate rebalanceId kw s = (.ok r, s) ∧ TurnedAway r := by
  unfold executeCandidateLocked
  rw [bind_run (m := Eff.read EngineState.inflight) (a := s.inflight) (t := s) rfl]
  by_cases hchannels :
      (explicitPair candidate).sourceChannelId = "" ∨ (explicitPair candidate).destChannelId = ""
  · rw [if_pos hchannels]
    exact ⟨_, rfl, .channels⟩
  · rw [if_neg hchannels, if_pos (.inl hpeer)]
    exact ⟨_, rfl, .peers⟩

theorem executeCandidate_turnedAway (rebalanceId : ℤ) (s : EngineState ν)
    (hpeer : candidate.primarySourcePeerId = "") :
    ∃ r, w.executeCandidate candidate rebalanceId kw s = (.ok r, []) ∧ TurnedAway r := by
  obtain ⟨r, t, hrun, hnone, hr⟩ : ∃ r t,
      RebalanceEngine.executeCandidate w.deps candidate rebalanceId kw
        (.start ⟨s.world, []⟩ s.ourId s.reservationNonce s.inflight) = (.ok r, t) ∧
      t.world.attempts = [] ∧ TurnedAway r := by
    have hask : ask w.deps.tryLock (.start ⟨s.world, []⟩ s.ourId s.reservationNonce s.inflight) =
        (.ok (w.seams.tryLock s.world).1,
          .start ⟨(w.seams.tryLock s.world).2, []⟩ s.ourId s.reservationNonce s.inflight) := rfl
    unfold RebalanceEngine.executeCandidate
    rw [bind_run hask]
    by_cases hfree : (w.seams.tryLock s.world).1 = true
    · rw [if_neg (by simpa using hfree)]
      obtain ⟨r, hrun, hr⟩ := executeCandidateLocked_turnedAway w candidate kw _ _ hpeer
      exact ⟨r, _, hrun, rfl, hr⟩
    · rw [if_pos (by simpa using hfree)]
      exact ⟨_, _, rfl, rfl, .busy _⟩
  refine ⟨r, ?_, hr⟩
  simp [Wiring.executeCandidate, hrun, hnone]

end Engine

section Desk

/-- What a submission meets: the readings of the clock to come, the evidence, the store with an
error that a read of it may end in, and the engine with its attempts for this submission. -/
structure Desk (ν : Type) where
  clock : ℕ → ℤ
  funds : Except String Unit
  peerChannels : Except String Unit
  readError : Option String
  tables : RebalanceTables
  engine : EngineState ν
  attempts : List Attempt

def Desk.reserved (d : Desk ν) (since : ℤ) : Except String ℤ :=
  match d.readError with
  | some e => .error e
  | none => .ok (d.tables.reservedSats since)

def Desk.write (d : Desk ν) (m : Rail Unit) : Option (Desk ν) :=
  match call m [] d.tables with
  | (.ok (), tables) => some { d with tables := tables }
  | _ => none

/-- The reply to a call of a manual submission and what it leaves, where the writes succeed. The
engine is called once, so what its own cells become is not kept. The other calls are those of
cycles and of the reconciliation. -/
def Desk.answer [UnicodeCase] [SerdeJson] (w : Wiring ν) :
    (op : Op) → Desk ν → Option (Reply op × Desk ν)
  | .clock, d => some (d.clock 0, { d with clock := fun n => d.clock (n + 1) })
  | .getFunds, d => some (d.funds, d)
  | .getPeerChannels, d => some (d.peerChannels, d)
  | .reservedSats since, d => some (d.reserved since, d)
  | .insertIntent intent _, d =>
    (d.write (insertRebalanceAttempt intent)).map fun e => (.replied (.ok ()), e)
  | .settle s, d => (d.write (settleRebalanceAttempt s)).map fun e => (.ok (), e)
  | .execute _ candidate rebalanceId kw, d =>
    match w.executeCandidate candidate rebalanceId kw d.engine with
    | (.ok r, attempts) => some (r, { d with attempts := d.attempts ++ attempts })
    | _ => none
  | _, _ => none

/-- Nothing happens at a desk by itself: the owner's thread is the only writer. -/
def desk [UnicodeCase] [SerdeJson] (w : Wiring ν) : World Op Reply (Desk ν) where
  answers op d r e := Desk.answer w op d = some (r, e)
  drifts _ _ := False

end Desk

section Law

def Unsent (s t : Desk ν) : Prop :=
  ∀ a ∈ t.attempts.drop s.attempts.length, ∀ c ∈ a.calls, RouteExecutorSafety.isSendpay c = false

/-- The reservations made between the two are released, and the window counts what it counted. -/
def Freed (s t : Desk ν) : Prop :=
  (∀ r ∈ t.tables.reservations.drop s.tables.reservations.length, r.status = .released) ∧
    ∀ since, t.tables.reservedSats since = s.tables.reservedSats since

structure Admitted (config : OwnerConfig) (o : OwnerState) (params : ManualRebalanceParams)
    (d : Desk ν) : Prop where
  running : o.suspended = false
  assembled : config.engineAssembled = true
  cap : ¬ OverCap config params
  gates : params.force = true ∨ (cooldownGate config o params (d.clock 0) = .ok () ∧
    ∃ since, windowStart config (d.clock 0) = .ok since ∧
      budgetGate config params (d.reserved since) = .ok ())
  funds : d.funds = .ok ()
  peerChannels : d.peerChannels = .ok ()

def Holds (s t : Desk ν) : Prop :=
  ∃ r ∈ t.tables.reservations.drop s.tables.reservations.length, r.status ≠ .released

def Open (s t : Desk ν) (requestId : String) : Prop :=
  ∃ r ∈ t.tables.reservations.drop s.tables.reservations.length,
    r.attemptRequestId = requestId ∧ r.status = .active

variable {s d e : Desk ν}

theorem Holds.not_freed (h : Holds s d) : ¬ Freed s d := by
  obtain ⟨r, hr, hstatus⟩ := h
  intro hfreed
  exact hstatus (hfreed.1 r hr)

theorem Open.holds {requestId : String} (h : Open s d requestId) : Holds s d := by
  obtain ⟨r, hr, -, hactive⟩ := h
  refine ⟨r, hr, ?_⟩
  rw [hactive]
  nofun

theorem freed_of_tables (h : d.tables = s.tables) : Freed s d := by
  constructor
  · rw [h, List.drop_length]
    simp
  · intro since
    rw [h]

theorem unsent_of_attempts (h : d.attempts = s.attempts) : Unsent s d := by
  unfold Unsent
  rw [h, List.drop_length]
  simp

theorem write_eq_some {m : Rail Unit} (h : d.write m = some e) :
    (call m [] d.tables).1 = .ok () ∧ e = { d with tables := (call m [] d.tables).2 } := by
  unfold Desk.write at h
  rcases hcall : call m [] d.tables with ⟨r, tables⟩
  rw [hcall] at h
  cases r with
  | ok a =>
    cases h
    exact ⟨rfl, rfl⟩
  | err _ => cases h
  | panic => cases h

theorem insertIntent_opens {intent : RebalanceAttemptIntent} (hs : s.tables = d.tables)
    (h : d.write (insertRebalanceAttempt intent) = some e) :
    Open s e intent.requestId ∧ e.attempts = d.attempts := by
  obtain ⟨hok, rfl⟩ := write_eq_some h
  refine ⟨?_, rfl⟩
  rcases call_atomic _ (insertRebalanceAttempt_atomic intent rfl rfl)
    with ⟨_, -, hinserted⟩ | hfailed
  · obtain ⟨-, -, hreservations⟩ := inserted_eq_some.mp hinserted
    refine ⟨intent.reservation, ?_, rfl, rfl⟩
    rw [hs, hreservations, List.drop_left]
    simp
  · exact absurd hok (hfailed.1 ())

theorem settle_holds {settlement : RebalanceSettle} (hopen : Open s d settlement.requestId)
    (hstatus : settlement.reservationStatus = .quarantined)
    (h : d.write (settleRebalanceAttempt settlement) = some e) :
    Holds s e ∧ e.attempts = d.attempts := by
  obtain ⟨hok, rfl⟩ := write_eq_some h
  refine ⟨?_, rfl⟩
  rcases call_atomic _ (settleRebalanceAttempt_atomic settlement rfl rfl) with
    ⟨_, -, hsettled⟩ | hfailed
  · obtain ⟨-, -, hreservations⟩ := settled_eq_some.mp hsettled
    obtain ⟨r, hr, hid, hactive⟩ := hopen
    refine ⟨settlement.reservation r, ?_, ?_⟩
    · rw [hreservations, ← List.map_drop]
      refine List.mem_map.mpr ⟨r, hr, if_pos ?_⟩
      simp [RebalanceSettle.holds, hid, hactive]
    · rw [RebalanceSettle.reservation, hstatus]
      nofun
  · exact absurd hok (hfailed.1 ())

/-- A submission that got past its gates holds its reservation, and no payment went out for it. -/
def Stranded (s t : Desk ν) : Prop := Holds s t ∧ t.attempts = s.attempts

variable {config : OwnerConfig} {o : OwnerState} {params : ManualRebalanceParams}

def Law (config : OwnerConfig) (o : OwnerState) (params : ManualRebalanceParams) (s t : Desk ν) :
    Prop := (Unsent s t → Freed s t) ↔ ¬ Admitted config o params s

theorem law_of_refused (htables : d.tables = s.tables) (h : ¬ Admitted config o params s) :
    Law config o params s d := ⟨fun _ => h, fun _ _ => freed_of_tables htables⟩

theorem law_of_stranded (hstranded : Stranded s d) (h : Admitted config o params s) :
    Law config o params s d := by
  obtain ⟨hholds, hattempts⟩ := hstranded
  constructor
  · exact fun hfreed => absurd (hfreed (unsent_of_attempts hattempts)) hholds.not_freed
  · exact fun hrefused => absurd h hrefused

end Law

section Runs

variable [UnicodeCase] [SerdeJson] {w : Wiring ν} {config : OwnerConfig} {o : OwnerState}
  {params : ManualRebalanceParams} {s d : Desk ν} {α : Type}

abbrev Always (w : Wiring ν) (Q : α → Desk ν → Prop) (p : Owner α) (d : Desk ν) : Prop :=
  (desk w).Safe (fun _ => True) Q p d

theorem always_ret {Q : α → Desk ν → Prop} {a : α} (h : Q a d) : Always w Q (.ret a) d := by
  apply World.Safe.ret (A := fun e => e = d)
  · exact fun _ _ _ hdrift => hdrift.elim
  · rfl
  · exact fun _ _ => trivial
  · rintro e rfl
    exact h

theorem always_call {Q : α → Desk ν → Prop} {op : Op} {next : Reply op → Owner α}
    (h : ∀ r e, Desk.answer w op d = some (r, e) → Always w Q (next r) e) :
    Always w Q (.call op next) d := by
  apply World.Safe.call (A := fun e => e = d)
  · exact fun _ _ _ hdrift => hdrift.elim
  · rfl
  · exact fun _ _ => trivial
  · rintro e r u rfl hanswer
    exact h r u hanswer

theorem always_settleManual {requestId : String} {r : ExecutionResult} (hr : TurnedAway r)
    (hopen : Open s d requestId) (hattempts : d.attempts = s.attempts) :
    Always w (fun _ => Stranded s) (settleManual o requestId r) d := by
  apply always_call
  intro resolvedAt e he
  cases he
  apply always_call
  intro settled e he
  obtain ⟨u, hu, he⟩ := Option.map_eq_some_iff.mp he
  cases he
  have hid : (settlementFor (classifyExecution r) requestId (d.clock 0)).requestId = requestId := by
    cases hr <;> rfl
  obtain ⟨hholds, hsame⟩ := settle_holds (by rwa [hid]) (hr.held requestId (d.clock 0)) hu
  exact always_ret ⟨hholds, hsame.trans hattempts⟩

omit [UnicodeCase] [SerdeJson] in
theorem manualCandidate_peer {candidate : RebalanceCandidate}
    (h : manualCandidate params = some candidate) : candidate.primarySourcePeerId = "" := by
  unfold manualCandidate at h
  by_cases hamount : 0 < params.amountSats
  · simp only [hamount, if_true, Option.bind_eq_bind, Option.bind_eq_some_iff, Option.pure_def,
      Option.some.injEq] at h
    obtain ⟨_, _, _, _, _, _, rfl⟩ := h
    rfl
  · simp only [hamount, if_false, Option.bind_eq_bind, Option.bind_eq_some_iff, Option.pure_def,
      Option.some.injEq] at h
    obtain ⟨_, _, _, _, _, _, rfl⟩ := h
    rfl

theorem always_submit {now : ℤ} (htables : d.tables = s.tables)
    (hattempts : d.attempts = s.attempts) :
    Always w (fun _ => Stranded s) (submit o params now) d := by
  apply always_call
  intro receipt e he
  obtain ⟨u, hu, he⟩ := Option.map_eq_some_iff.mp he
  cases he
  obtain ⟨hopen, hsame⟩ := insertIntent_opens htables.symm hu
  have hkept : e.attempts = s.attempts := hsame.trans hattempts
  cases hcandidate : manualCandidate params with
  | none => exact always_ret ⟨hopen.holds, hkept⟩
  | some candidate =>
    apply always_call
    intro r f he
    obtain ⟨result, hresult, hturned⟩ := executeCandidate_turnedAway w candidate
      (RebalanceFacade.engineKwargs .manual) (-1) e.engine (manualCandidate_peer hcandidate)
    simp only [Desk.answer, hresult, Option.some.injEq, Prod.mk.injEq] at he
    obtain ⟨rfl, rfl⟩ := he
    refine always_settleManual hturned hopen ?_
    simp [hkept]

/-- The soft gates change nothing, and pass where the store's reading lets them. -/
theorem always_softGates (now : ℤ) :
    Always w (fun r e => e = d ∧ (r = .ok () ↔ params.force = true ∨
      (cooldownGate config o params now = .ok () ∧ ∃ since, windowStart config now = .ok since ∧
        budgetGate config params (d.reserved since) = .ok ())))
      (softGates config o params now) d := by
  unfold softGates
  by_cases hforce : params.force = true
  · rw [if_pos hforce]
    exact always_ret ⟨rfl, by simp [hforce]⟩
  rw [if_neg hforce]
  cases hcooldown : cooldownGate config o params now with
  | err e => exact always_ret ⟨rfl, by simp [hforce]⟩
  | panic => exact always_ret ⟨rfl, by simp [hforce]⟩
  | ok a =>
    cases hwindow : windowStart config now with
    | err e => exact always_ret ⟨rfl, by simp [hforce]⟩
    | panic => exact always_ret ⟨rfl, by simp [hforce]⟩
    | ok since =>
      apply always_call
      intro r e he
      cases he
      exact always_ret ⟨rfl, by simp [hforce]⟩

omit [UnicodeCase] [SerdeJson] in
theorem evidenceOf_eq_ok {source : String} {reply : Except String Unit} :
    evidenceOf source reply = .ok () ↔ reply = .ok () := by
  cases reply with
  | error e => simp [evidenceOf]
  | ok a => simp [evidenceOf]

theorem always_evidence :
    Always w (fun r e => e = d ∧ (r = .ok () ↔ d.funds = .ok () ∧ d.peerChannels = .ok ()))
      evidence d := by
  apply always_call
  intro funds e he
  cases he
  cases hfunds : d.funds with
  | error e => exact always_ret ⟨rfl, by simp⟩
  | ok a =>
    apply always_call
    intro peerChannels e he
    cases he
    exact always_ret ⟨rfl, by simp [evidenceOf_eq_ok]⟩

theorem always_check {β γ : Type} {r : Outcome RebalanceRefusal β} {k : β → Owner (Told γ)}
    {Q : Told γ → Desk ν → Prop} (hstop : (∀ a, r ≠ .ok a) → ∀ told, Q told d)
    (hgo : ∀ a, r = .ok a → Always w Q (k a) d) : Always w Q (check o r k) d := by
  cases r with
  | ok a => exact hgo a rfl
  | err e => exact always_ret (hstop (by simp) _)
  | panic => exact always_ret (hstop (by simp) _)

theorem always_manual (s : Desk ν) :
    Always w (fun _ => Law config o params s) (manual config o params) s := by
  unfold manual
  by_cases hsuspended : o.suspended = true
  · rw [if_pos hsuspended]
    refine always_ret (law_of_refused rfl fun h => ?_)
    rw [h.running] at hsuspended
    cases hsuspended
  rw [if_neg hsuspended]
  by_cases hassembled : config.engineAssembled = true
  swap
  · rw [if_pos (by simpa using hassembled)]
    exact always_ret (law_of_refused rfl fun h => hassembled h.assembled)
  rw [if_neg (by simpa using hassembled)]
  apply always_call
  intro now d hd
  cases hd
  change Always w _ (if OverCap config params then _ else _) _
  by_cases hcap : OverCap config params
  · rw [if_pos hcap]
    exact always_ret (law_of_refused rfl fun h => h.cap hcap)
  rw [if_neg hcap]
  apply World.Safe.bind
  refine World.Safe.mono (always_softGates (s.clock 0)) fun gates e _ he => ?_
  obtain ⟨rfl, hgates⟩ := he
  apply always_check
  · exact fun hstop _ => law_of_refused rfl fun h => hstop () (hgates.mpr h.gates)
  intro _ hpassed
  apply World.Safe.bind
  refine World.Safe.mono always_evidence fun fresh e _ he => ?_
  obtain ⟨rfl, hfresh⟩ := he
  apply always_check
  · exact fun hstop _ => law_of_refused rfl fun h => hstop () (hfresh.mpr ⟨h.funds, h.peerChannels⟩)
  intro _ hevidence
  refine World.Safe.mono (always_submit rfl rfl) fun told e _ he => ?_
  refine law_of_stranded he ⟨by simpa using hsuspended, hassembled, hcap, ?_, ?_, ?_⟩
  · exact hgates.mp hpassed
  · exact (hfresh.mp hevidence).1
  · exact (hfresh.mp hevidence).2

/-- A submission for which no payment goes out frees what it reserved exactly when it is refused
before it reserves. -/
theorem unsent_freed_iff (w : Wiring ν) (config : OwnerConfig) (o : OwnerState)
    (params : ManualRebalanceParams) {s t : Desk ν} {told : Told ManualOutcome}
    {log : List (World.Moment Op Reply (Desk ν))}
    (h : (desk w).Run (manual config o params) s log (.ret told) t) :
    (Unsent s t → Freed s t) ↔ ¬ Admitted config o params s := by
  have hlaw : (desk w).Safe _ (fun _ => Law config o params s) _ t :=
    World.Safe.run (always_manual s) h
  exact hlaw.result

end Runs

section Stranding

open SubmissionSoundness (circularWiring failureJson)

def rebalanceConfig : OwnerConfig :=
  { engineAssembled := true
    dailyBudgetSats := 1000000
    budgetWindowHours := 24
    rebalanceMaxAmount := 500000
    pairCooldownSeconds := 3600 }

def smallSubmission : ManualRebalanceParams :=
  { fromChannel := "1x1x1"
    toChannel := "2x2x2"
    amountSats := 100000
    maxFeeSats := some 100
    force := true }

def quietDesk : Desk ℕ :=
  { clock := fun _ => 100000
    funds := .ok ()
    peerChannels := .ok ()
    readError := none
    tables := .empty
    engine := .start 0 "" 0 []
    attempts := [] }

def circularDesk : World Op Reply (Desk ℕ) := @desk ℕ asciiCase failureJson circularWiring

def smallRun : Option (Told ManualOutcome × Desk ℕ) :=
  World.simulate (@Desk.answer ℕ asciiCase failureJson circularWiring)
    (manual rebalanceConfig .fresh smallSubmission) quietDesk

theorem smallRun_eq : smallRun.map (fun run => (run.2.tables.reservations.map
    ReservationRecord.status, run.2.attempts.length)) = some ([.quarantined], 0) := by
  decide

theorem smallRun_runs : ∃ told log t,
    circularDesk.Run (manual rebalanceConfig .fresh smallSubmission) quietDesk log (.ret told) t ∧
      t.tables.reservations.map ReservationRecord.status = [.quarantined] ∧
      t.attempts.length = 0 := by
  obtain ⟨⟨told, t⟩, hrun, ht⟩ := Option.map_eq_some_iff.mp smallRun_eq
  obtain ⟨hstatus, hattempts⟩ := Prod.mk.inj ht
  obtain ⟨log, hlog⟩ := World.run_of_simulate (W := circularDesk) (fun _ _ _ _ h => h) hrun
  exact ⟨told, log, t, hlog, hstatus, hattempts⟩

theorem smallRun_holds {t : Desk ℕ}
    (hstatus : t.tables.reservations.map ReservationRecord.status = [.quarantined]) :
    Holds quietDesk t := by
  obtain ⟨r, hr, hr'⟩ : ∃ r, t.tables.reservations = [r] ∧ r.status = .quarantined := by
    simpa [List.map_eq_cons_iff] using hstatus
  refine ⟨r, ?_, ?_⟩
  · rw [hr]
    exact List.mem_singleton_self r
  · rw [hr']
    nofun

/-- The engine turns the submission away without a call to the node, and the reservation stays. -/
theorem refused_submission_strands :
    smallSubmission.fromChannel ≠ "" ∧ smallSubmission.toChannel ≠ "" ∧
      0 < smallSubmission.amountSats ∧ ¬ OverCap rebalanceConfig smallSubmission ∧
      ∃ told log t, circularDesk.Run (manual rebalanceConfig .fresh smallSubmission) quietDesk log
        (.ret told) t ∧ Unsent quietDesk t ∧ ¬ Freed quietDesk t := by
  refine ⟨by decide, by decide, by decide, by decide, ?_⟩
  obtain ⟨told, log, t, hrun, hstatus, hattempts⟩ := smallRun_runs
  refine ⟨told, log, t, hrun, unsent_of_attempts ?_, (smallRun_holds hstatus).not_freed⟩
  exact List.length_eq_zero_iff.mp hattempts

theorem small_submission_not_freed : ∃ t : Desk ℕ, ¬ (Unsent quietDesk t → Freed quietDesk t) := by
  obtain ⟨told, log, t, hrun, -, -⟩ := smallRun_runs
  refine ⟨t, fun hfreed => ?_⟩
  have hrefused := (@unsent_freed_iff ℕ asciiCase failureJson circularWiring rebalanceConfig .fresh
    smallSubmission quietDesk t told log hrun).mp hfreed
  exact hrefused ⟨rfl, rfl, by decide, .inl rfl, rfl, rfl⟩

end Stranding

end RebalanceOwner
