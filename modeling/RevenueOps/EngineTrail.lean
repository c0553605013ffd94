import RevenueOps.EngineAttempts

/-! The trail that one execution leaves: its history row, its reservation, its attempts, and the
bookkeeping that closes them, in this order. -/
namespace EngineTrail

open FallibleState JsonValue RustNumber RustText RouteExecutor RebalanceEngine EngineAttempts
open BudgetRail (ReserveRequest)

variable {ω : Type} {b : Bounds}

inductive CallKind where
  | insertion
  | row
  | parking
  | reservation
  | closing
  | attempt
  | note
  deriving DecidableEq, Repr

def kind : EngineCall → CallKind
  | .insertOrAdoptHistory .. => .insertion
  | .updateHistory .. | .updateHistorySuccess .. => .row
  | .updateHistoryPendingSettlement .. => .parking
  | .reserveBudget .. => .reservation
  | .markBudgetSpent .. | .releaseReservation .. => .closing
  | .execute .. => .attempt
  | _ => .note

def OfKind (ks : List CallKind) (calls : List EngineCall) : Prop := ∀ c ∈ calls, kind c ∈ ks

theorem OfKind.nil (ks : List CallKind) : OfKind ks [] := by simp [OfKind]

theorem OfKind.append {ks : List CallKind} {cs ds : List EngineCall} (h : OfKind ks cs)
    (k : OfKind ks ds) : OfKind ks (cs ++ ds) := by
  intro c hc
  rcases List.mem_append.mp hc with hc | hc
  · exact h c hc
  · exact k c hc

theorem OfKind.mono {ks ls : List CallKind} {calls : List EngineCall} (h : OfKind ks calls)
    (hkl : ks ⊆ ls) : OfKind ls calls := fun c hc => hkl (h c hc)

theorem OfKind.not_mem {ks : List CallKind} {calls : List EngineCall} {c : EngineCall}
    (h : OfKind ks calls) (hc : kind c ∉ ks) : c ∉ calls := fun hmem => hc (h c hmem)

theorem ofKind_tell (ks : List CallKind) {deps : EngineDeps ω} {call : EngineCall}
    (hb : b.Allows call) (h : kind call ∈ ks) :
    Logs b (tell deps call) fun _ calls => OfKind ks calls := by
  refine Logs.mono (logs_tell hb) ?_
  rintro _ calls rfl c hc
  obtain rfl := List.mem_singleton.mp hc
  exact h

theorem carried_ofKind {r : ExecutionResult} {calls : List EngineCall} (h : Carried r calls) :
    OfKind [.attempt] calls := by
  intro c hc
  obtain ⟨req, q, rfl, -⟩ := h.tried c hc
  simp [kind]

section Bookkeeping

/-- A sweepable pending failure parks its row; every other result leaves rows and notes. -/
structure Recorded (rebalanceId : Option ℤ) (r : ExecutionResult) (calls : List EngineCall) :
    Prop where
  parks : ∀ id hash, rebalanceId = some id → r.success = false → r.paymentPending = true →
    r.paymentHash = some hash → hash ≠ "" →
      ∃ e, calls = [.updateHistoryPendingSettlement id e hash]
  quiet : rebalanceId = none ∨ r.success = true ∨ ¬Held r → OfKind [.row, .note] calls

/-- A reservation is closed by one call, unless it was not taken or its payment is held. -/
structure Closed (reservationId : String) (reserved : Bool) (r : ExecutionResult)
    (calls : List EngineCall) : Prop where
  stays : reserved = false ∨ Held r → calls = []
  closes : reserved = true → ¬Held r →
    calls = [.releaseReservation reservationId] ∨
      ∃ fee, calls = [.markBudgetSpent reservationId fee]

theorem Recorded.ofKind {rowId : Option ℤ} {r : ExecutionResult} {record : List EngineCall}
    (h : Recorded rowId r record) : OfKind [.row, .note, .parking] record := by
  by_cases hq : rowId = none ∨ r.success = true ∨ ¬Held r
  · exact (h.quiet hq).mono (by simp)
  · simp only [not_or, Bool.not_eq_true, not_not] at hq
    obtain ⟨hrow, hfailed, hpending, hash, hhash, hne⟩ := hq
    obtain ⟨id, hid⟩ := Option.ne_none_iff_exists'.mp hrow
    obtain ⟨e, rfl⟩ := h.parks id hash hid hfailed hpending hhash hne
    intro c hc
    obtain rfl := List.mem_singleton.mp hc
    simp [kind]

theorem Closed.ofKind {reservationId : String} {reserved : Bool} {r : ExecutionResult}
    {close : List EngineCall} (h : Closed reservationId reserved r close) :
    OfKind [.closing] close := by
  by_cases hs : reserved = false ∨ Held r
  · rw [h.stays hs]
    exact OfKind.nil _
  · simp only [not_or, Bool.not_eq_false] at hs
    rcases h.closes hs.1 hs.2 with rfl | ⟨fee, rfl⟩
    all_goals
      intro c hc
      obtain rfl := List.mem_singleton.mp hc
      simp [kind]

theorem ofKind_recordCost (deps : EngineDeps ω) (result : ExecutionResult) (pair : PairCandidate)
    (amountSats : ℤ) :
    Logs b (recordCost deps result pair amountSats) fun _ calls => OfKind [.row, .note] calls := by
  refine Logs.after_checked fun fromSats _ => Logs.ite (fun _ => ?_) fun _ =>
    Logs.pure (OfKind.nil _)
  refine Logs.after_checked fun costSats _ => Logs.after_silent silent_ask fun now => ?_
  exact ofKind_tell _ trivial (by simp [kind])

theorem ofKind_recordSuccess (deps : EngineDeps ω) (id : ℤ) (result : ExecutionResult)
    (pair : PairCandidate) (accountCosts : Bool) :
    Logs b (recordSuccess deps id result pair accountCosts) fun _ calls =>
      OfKind [.row, .note] calls := by
  refine Logs.bind (ofKind_tell [.row, .note] trivial (by simp [kind])) fun _ calls hcalls => ?_
  refine Logs.ite (fun _ => ?_) fun _ => Logs.pure (hcalls.append (OfKind.nil _))
  exact (ofKind_recordCost deps result pair _).mono fun _ more hmore => hcalls.append hmore

theorem logs_recordRebalanceResult (deps : EngineDeps ω) (rebalanceId : Option ℤ)
    (r : ExecutionResult) (pair : PairCandidate) (accountCosts : Bool) :
    Logs b (recordRebalanceResult deps rebalanceId r pair accountCosts) fun _ calls =>
      Recorded rebalanceId r calls := by
  match rebalanceId with
  | none =>
    refine Logs.pure ⟨?_, fun _ => OfKind.nil _⟩
    intro id hash hid
    cases hid
  | some id =>
    refine Logs.ite (fun hs => ?_) fun hs => Logs.ite (fun hp => ?_) fun hp => ?_
    · refine (ofKind_recordSuccess deps id r pair accountCosts).mono ?_
      refine fun _ calls hcalls => ⟨?_, fun _ => hcalls⟩
      intro i hash _ hf
      rw [hs] at hf
      cases hf
    · cases hh : sweepableHash r with
      | some hash =>
        refine Logs.mono (logs_tell trivial) ?_
        rintro _ calls rfl
        obtain ⟨hhash, hne⟩ := sweepableHash_eq_some.mp hh
        refine ⟨fun i h hi _ _ hr _ => ⟨errorText r, ?_⟩, fun hq => ?_⟩
        · obtain rfl := Option.some.inj hi
          obtain rfl := Option.some.inj (hhash.symm.trans hr)
          rfl
        · rcases hq with hq | hq | hq
          · cases hq
          · exact absurd hq hs
          · exact absurd ⟨hp, hash, hhash, hne⟩ hq
      | none =>
        refine Logs.mono (ofKind_tell [.row, .note] trivial (by simp [kind])) ?_
        refine fun _ calls hcalls => ⟨?_, fun _ => hcalls⟩
        intro i hash _ _ _ hr hne
        rw [sweepableHash_eq_some.mpr ⟨hr, hne⟩] at hh
        cases hh
    · refine Logs.mono (ofKind_tell [.row, .note] trivial (by simp [kind])) ?_
      refine fun _ calls hcalls => ⟨?_, fun _ => hcalls⟩
      intro i hash _ _ ht
      exact absurd ht hp

theorem logs_finishExecutionBudget (deps : EngineDeps ω) (reservationId : String)
    (reserved : Bool) (r : ExecutionResult) :
    Logs b (finishExecutionBudget deps reservationId reserved r) fun _ calls =>
      Closed reservationId reserved r calls := by
  refine Logs.ite (fun hr => Logs.pure ?_) fun hr => ?_
  · refine ⟨fun _ => rfl, fun ht => ?_⟩
    rw [ht] at hr
    cases hr
  have hreserved : reserved ≠ false := by simpa using hr
  refine Logs.ite (fun hp => Logs.ite (fun hh => Logs.pure ?_) fun hh => ?_) fun hp =>
    Logs.ite (fun _ => ?_) fun _ => ?_
  · exact ⟨fun _ => rfl, fun _ hn => absurd (held_iff.mpr ⟨hp, hh⟩) hn⟩
  · have hn : ¬Held r := fun h => hh (held_iff.mp h).2
    refine Logs.mono (logs_tell trivial) ?_
    rintro _ calls rfl
    exact ⟨fun h => absurd h (not_or.mpr ⟨hreserved, hn⟩), fun _ _ => .inl rfl⟩
  all_goals
    have hn : ¬Held r := fun h => hp h.1
    refine Logs.mono (logs_tell trivial) ?_
    rintro _ calls rfl
    refine ⟨fun h => absurd h (not_or.mpr ⟨hreserved, hn⟩), fun _ _ => ?_⟩
  · exact .inr ⟨_, rfl⟩
  · exact .inl rfl

theorem ofKind_pushSegmentObservationSnapshot (deps : EngineDeps ω) :
    Logs b (pushSegmentObservationSnapshot deps) fun _ calls => OfKind [.note] calls := by
  refine Logs.after_silent (silent_ensureOurId deps) fun observer => ?_
  refine Logs.ite (fun _ => Logs.pure (OfKind.nil _)) fun _ => ?_
  refine Logs.after_silent silent_ask fun now => Logs.after_silent silent_ask fun some? => ?_
  exact Logs.ite (fun _ => ofKind_tell _ trivial (by simp [kind])) fun _ => Logs.pure (OfKind.nil _)

end Bookkeeping

section Execution

/-- The row of an execution: the caller's, or a fresh one when the store gives one. -/
inductive Rowed : Option ℤ → Option ℤ → List EngineCall → Prop where
  | given (id : ℤ) : Rowed (some id) (some id) []
  | inserted (row : HistoryRow) (id : ℤ) :
    Rowed none (if 0 < id then some id else none) [.insertOrAdoptHistory row id]

/-- What asking the rail led to: the flag, the result that blocks, and the call. -/
inductive Reservation (reservationId : String) :
    Bool → Option ExecutionResult → List EngineCall → Prop where
  | skipped (block : Option ExecutionResult) : (∀ r ∈ block, r.paymentPending = false) →
      Reservation reservationId false block []
  | granted (req : ReserveRequest) : req.reservationId = reservationId →
      Reservation reservationId true none [.reserveBudget req none]
  | refused (req : ReserveRequest) (block : BudgetBlock) (r : ExecutionResult) :
    r.paymentPending = false →
      Reservation reservationId false (some r) [.reserveBudget req (some block)]

def Paid (reservationId : String) (rebalanceId : Option ℤ) (reserved : Bool)
    (r : ExecutionResult) (calls : List EngineCall) : Prop :=
  ∃ attempts record close notes, calls = attempts ++ (record ++ (close ++ notes)) ∧
    Carried r attempts ∧ Recorded rebalanceId r record ∧ Closed reservationId reserved r close ∧
      OfKind [.note] notes

inductive Trail (rebalanceId : Option ℤ) (asked : Bool) (r : ExecutionResult) :
    List EngineCall → Prop where
  | unpaid (calls : List EngineCall) : r.paymentPending = false →
    OfKind [.insertion, .row, .note, .reservation] calls →
    (∀ req, .reserveBudget req none ∉ calls) → Trail rebalanceId asked r calls
  | paid (rowId : Option ℤ) (reservationId : String) (reserved : Bool)
    (rows reserve calls : List EngineCall) : Rowed rebalanceId rowId rows →
    (∀ id, rowId = some id → reservationId = toString id) →
    Reservation reservationId reserved none reserve → (asked = false → reserved = false) →
    Paid reservationId rowId reserved r calls →
      Trail rebalanceId asked r (rows ++ (reserve ++ calls))

theorem logs_historyId (deps : EngineDeps ω) (pair : PairCandidate) (rebalanceId : Option ℤ) :
    Logs b (historyId deps pair rebalanceId) fun rowId calls => Rowed rebalanceId rowId calls := by
  match rebalanceId with
  | some id => exact Logs.pure (.given id)
  | none =>
    refine Logs.bind (logs_askLogged fun _ => trivial) ?_
    rintro id calls rfl
    exact Logs.pure (.inserted _ id)

theorem logs_reservationIdOf (pair : PairCandidate) (rebalanceId : Option ℤ) :
    Logs (ω := ω) b (reservationIdOf pair rebalanceId) fun reservationId calls =>
      calls = [] ∧ ∀ id, rebalanceId = some id → reservationId = toString id := by
  match rebalanceId with
  | some id =>
    refine Logs.pure ⟨rfl, fun i hi => ?_⟩
    obtain rfl := Option.some.inj hi
    rfl
  | none =>
    refine Logs.after_silent silent_read fun nonce => ?_
    refine Logs.after_silent (silent_modify ?_) fun _ => Logs.pure ⟨rfl, fun i hi => ?_⟩
    · exact fun _ => rfl
    · cases hi

theorem blockedResult_not_pending (effectiveBudget amountSats : ℤ) (block : BudgetBlock) :
    (blockedResult effectiveBudget amountSats block).paymentPending = false := by
  cases block <;> rfl

theorem logs_reserveExecutionBudget (deps : EngineDeps ω) (pair : PairCandidate)
    (reservationId : String) :
    Logs (planBounds deps.config pair)
      (reserveExecutionBudget deps pair reservationId) fun out calls =>
      Reservation reservationId out.1 out.2 calls := by
  refine Logs.ite (fun _ => Logs.ite (fun _ => Logs.pure ?_) fun _ => Logs.pure ?_) fun hbudget =>
    Logs.ite (fun _ => Logs.pure ?_) fun hfee => ?_
  · exact .skipped none (by simp)
  · refine .skipped _ fun r hr => ?_
    obtain rfl := Option.mem_some.mp hr
    rfl
  · exact .skipped none (by simp)
  refine Logs.after_silent silent_ask fun now => Logs.after_checked fun windowSecs hw => ?_
  refine Logs.after_checked fun since _ => Logs.after_checked fun weeklySince _ => ?_
  have hgrantable : Grantable deps.config pair := by
    refine ⟨?_, ?_, (i64?_eq_some.mp hw).1⟩
    · unfold globalBudgetLimit at hbudget
      omega
    · omega
  have hamount : max (pairMaxFeeSats pair) 0 = pairMaxFeeSats pair := max_eq_left (by omega)
  refine Logs.bind (logs_askLogged fun _ => ⟨hgrantable, hamount⟩) ?_
  rintro block calls rfl
  match block with
  | none => exact Logs.pure (.granted _ rfl)
  | some block => exact Logs.pure (.refused _ _ _ (blockedResult_not_pending ..))

theorem logs_payAndClose [UnicodeCase] (deps : EngineDeps ω) (pair : PairCandidate)
    (reservationId : String) (reserved accountCosts : Bool) (rebalanceId : Option ℤ) :
    Logs (planBounds deps.config pair)
      (payAndClose deps pair reservationId reserved accountCosts rebalanceId) fun r calls =>
      Paid reservationId rebalanceId reserved r calls := by
  refine Logs.bind (logs_executeRequest deps pair (.inl rfl)) ?_
  rintro first calls ⟨req, rfl⟩
  refine Logs.bind (logs_retryWithExclusions deps pair first) ?_
  rintro ⟨second, plan⟩ retries ⟨hplan, hfirst⟩
  have hpartial := logs_retryWithPartialAmounts deps plan second
  rw [hplan.bounds] at hpartial
  refine Logs.bind hpartial ?_
  rintro ⟨r, final⟩ rungs hsecond
  refine Logs.bind (logs_recordRebalanceResult deps rebalanceId r final accountCosts) ?_
  intro _ record hrecord
  refine Logs.bind (logs_finishExecutionBudget deps reservationId reserved r) ?_
  intro _ close hclose
  have hcarried : Carried r (.execute req first :: (retries ++ rungs)) :=
    (hfirst.trans hsecond).carried
  have hend : ∀ notes, OfKind [.note] notes →
      Paid reservationId rebalanceId reserved r
        (.execute req first :: (retries ++ (rungs ++ (record ++ (close ++ notes))))) :=
    fun notes hnotes => ⟨_, record, close, notes, by simp, hcarried, hrecord, hclose, hnotes⟩
  refine Logs.ite (fun _ => ?_) fun _ => Logs.pure (hend [] (OfKind.nil _))
  refine Logs.bind (ofKind_pushSegmentObservationSnapshot deps) fun _ notes hnotes => Logs.pure ?_
  rw [List.append_nil]
  exact hend notes hnotes

theorem Rowed.ofKind {rebalanceId rowId : Option ℤ} {calls : List EngineCall}
    (h : Rowed rebalanceId rowId calls) : OfKind [.insertion] calls := by
  cases h with
  | given id => exact OfKind.nil _
  | inserted row id =>
    intro c hc
    obtain rfl := List.mem_singleton.mp hc
    simp [kind]

theorem Reservation.ofKind {reservationId : String} {reserved : Bool}
    {block : Option ExecutionResult}
    {calls : List EngineCall} (h : Reservation reservationId reserved block calls) :
    OfKind [.reservation] calls := by
  intro c hc
  cases h with
  | skipped => simp at hc
  | granted =>
    obtain rfl := List.mem_singleton.mp hc
    simp [kind]
  | refused =>
    obtain rfl := List.mem_singleton.mp hc
    simp [kind]

theorem Reservation.blocked {reservationId : String} {reserved : Bool} {r : ExecutionResult}
    {calls : List EngineCall}
    (h : Reservation reservationId reserved (some r) calls) :
    r.paymentPending = false ∧ ∀ req, .reserveBudget req none ∉ calls := by
  cases h with
  | skipped _ hr => exact ⟨hr r rfl, by simp⟩
  | refused req block _ hr => exact ⟨hr, by simp⟩

theorem Reservation.grants {reservationId : String} {reserved : Bool}
    {block : Option ExecutionResult}
    {calls : List EngineCall} {req : ReserveRequest}
    (h : Reservation reservationId reserved block calls)
    (hreq : .reserveBudget req none ∈ calls) :
    reserved = true ∧ req.reservationId = reservationId := by
  cases h with
  | skipped => simp at hreq
  | granted req' hname =>
    obtain ⟨rfl, -⟩ := EngineCall.reserveBudget.inj (List.mem_singleton.mp hreq)
    exact ⟨rfl, hname⟩
  | refused => simp at hreq

theorem Paid.ofKind {reservationId : String} {rebalanceId : Option ℤ} {reserved : Bool}
    {r : ExecutionResult} {calls : List EngineCall}
    (h : Paid reservationId rebalanceId reserved r calls) :
    OfKind [.attempt, .row, .note, .parking, .closing] calls := by
  obtain ⟨attempts, record, close, notes, rfl, hcarried, hrecord, hclose, hnotes⟩ := h
  exact ((carried_ofKind hcarried).mono (by simp)).append ((hrecord.ofKind.mono (by simp)).append
    ((hclose.ofKind.mono (by simp)).append (hnotes.mono (by simp))))

/-- The replies of a paid execution hold the reservation exactly when its result does. -/
theorem Paid.held_iff {reservationId : String} {rebalanceId : Option ℤ} {reserved : Bool}
    {r : ExecutionResult} {calls : List EngineCall}
    (h : Paid reservationId rebalanceId reserved r calls)
    {P : ExecutionResult → Prop} (hP : ∀ p q, SameOutcome p q → (P p ↔ P q)) :
    (Held r → P r) ↔ ∀ req q, .execute req q ∈ calls → Held q → P q := by
  obtain ⟨attempts, record, close, notes, rfl, hcarried, hrecord, hclose, hnotes⟩ := h
  have hafter : OfKind [.row, .note, .parking, .closing] (record ++ (close ++ notes)) :=
    (hrecord.ofKind.mono (by simp)).append
      ((hclose.ofKind.mono (by simp)).append (hnotes.mono (by simp)))
  rw [hcarried.held_iff hP]
  refine forall₂_congr fun req q => ?_
  have hno : .execute req q ∉ record ++ (close ++ notes) := hafter.not_mem (by simp [kind])
  rw [List.mem_append, or_iff_left hno]

theorem logs_reserveAndPay [UnicodeCase] (deps : EngineDeps ω) (pair : PairCandidate)
    (reservationId : String) (asked accountCosts : Bool) (rebalanceId rowId : Option ℤ)
    {rows : List EngineCall} (hrows : Rowed rebalanceId rowId rows)
    (hid : ∀ id, rowId = some id → reservationId = toString id) :
    Logs (planBounds deps.config pair)
      (reserveAndPay deps pair reservationId asked accountCosts rowId) fun r calls =>
      Trail rebalanceId asked r (rows ++ calls) := by
  have hskip : Reservation reservationId false none [] := .skipped none (by simp)
  refine Logs.ite (fun hasked => ?_) fun _ => ?_
  · refine Logs.bind (logs_reserveExecutionBudget deps pair reservationId) ?_
    rintro ⟨reserved, block⟩ reserve hreserve
    match block with
    | some r =>
      obtain ⟨hpending, hgrant⟩ := hreserve.blocked
      refine Logs.bind (logs_recordRebalanceResult deps rowId r pair false) fun _ record hrec => ?_
      have hnotHeld : ¬Held r := fun h => absurd h.1 (by simp [hpending])
      have hrecord : OfKind [.row, .note] record := hrec.quiet (.inr (.inr hnotHeld))
      refine Logs.pure (.unpaid _ hpending ?_ fun req => ?_)
      · rw [List.append_nil]
        exact (hrows.ofKind.mono (by simp)).append
          ((hreserve.ofKind.mono (by simp)).append (hrecord.mono (by simp)))
      · simp only [List.mem_append, not_or]
        exact ⟨hrows.ofKind.not_mem (by simp [kind]), hgrant req,
          hrecord.not_mem (by simp [kind]), by simp⟩
    | none =>
      refine (logs_payAndClose deps pair reservationId reserved accountCosts rowId).mono ?_
      intro r calls hpaid
      refine .paid rowId reservationId reserved rows reserve calls hrows hid hreserve ?_ hpaid
      intro hno
      rw [hno] at hasked
      cases hasked
  · refine (logs_payAndClose deps pair reservationId false accountCosts rowId).mono ?_
    intro r calls hpaid
    exact .paid rowId reservationId false rows [] calls hrows hid hskip (fun _ => rfl) hpaid

theorem logs_executePair [UnicodeCase] (deps : EngineDeps ω) (pair : PairCandidate)
    (asked accountCosts : Bool) (rebalanceId : Option ℤ) :
    Logs (planBounds deps.config pair)
      (executePair deps pair asked accountCosts rebalanceId) fun r calls =>
      Trail rebalanceId asked r calls := by
  refine Logs.after_silent (silent_pairPolicyAllowed deps pair) ?_
  rintro ⟨allowed, reason⟩
  refine Logs.ite (fun _ => Logs.pure (.unpaid [] rfl (OfKind.nil _) (by simp))) fun _ => ?_
  refine Logs.bind (logs_historyId deps pair rebalanceId) fun rowId rows hrows => ?_
  refine Logs.bind (logs_reservationIdOf pair rowId) ?_
  rintro reservationId calls ⟨rfl, hid⟩
  refine Logs.after_silent (silent_modify fun s => ?_) fun _ => ?_
  · split <;> rfl
  refine Logs.bind (logs_reserveAndPay deps pair reservationId asked accountCosts rebalanceId rowId
    hrows hid) fun r calls htrail => ?_
  refine Logs.after_silent (silent_modify fun _ => rfl) fun _ => Logs.pure ?_
  simpa using htrail

/-- A candidate that is not executed leaves no trail and no pending payment. -/
theorem logs_executeCandidate [UnicodeCase] (deps : EngineDeps ω) (candidate : RebalanceCandidate)
    (rebalanceId : ℤ) (kw : EngineKwargs) :
    Logs .none (executeCandidate deps candidate rebalanceId kw) fun r calls =>
      Trail (if 0 < rebalanceId then some rebalanceId else none) kw.reserveBudget r calls := by
  have hfailed : ∀ r : ExecutionResult, r.paymentPending = false →
      Trail (if 0 < rebalanceId then some rebalanceId else none) kw.reserveBudget r [] :=
    fun r hr => .unpaid [] hr (OfKind.nil _) (by simp)
  refine Logs.after_silent silent_ask fun free => ?_
  refine Logs.ite (fun _ => Logs.pure (hfailed _ rfl)) fun _ =>
    Logs.after_silent silent_read fun inflight => ?_
  refine Logs.ite (fun _ => Logs.pure (hfailed _ rfl)) fun _ => ?_
  refine Logs.ite (fun _ => Logs.pure (hfailed _ rfl)) fun _ => ?_
  refine Logs.ite (fun _ => Logs.pure (hfailed _ rfl)) fun _ => ?_
  refine Logs.ite (fun _ => Logs.pure (hfailed _ rfl)) fun _ => ?_
  refine Logs.after_silent (silent_routePairFresh deps _ _) fun priced => ?_
  match priced with
  | none => exact Logs.pure (hfailed _ rfl)
  | some (.error exc) => exact Logs.pure (hfailed _ rfl)
  | some (.ok route) =>
    refine Logs.ite (fun _ => Logs.pure (hfailed _ rfl)) fun _ => ?_
    exact (logs_executePair deps _ _ _ _).unbounded

section Trail

variable {rebalanceId : Option ℤ} {asked : Bool} {r : ExecutionResult} {calls : List EngineCall}

theorem Trail.held_iff (h : Trail rebalanceId asked r calls)
    {P : ExecutionResult → Prop} (hP : ∀ p q, SameOutcome p q → (P p ↔ P q)) :
    (Held r → P r) ↔ ∀ req q, .execute req q ∈ calls → Held q → P q := by
  cases h with
  | unpaid _ hpending hkinds _ =>
    constructor
    · intro _ req q hmem
      exact absurd hmem (hkinds.not_mem (by simp [kind]))
    · intro _ hheld
      exact absurd hheld.1 (by simp [hpending])
  | paid rowId reservationId reserved rows reserve calls hrows _ hreserve _ hpaid =>
    rw [hpaid.held_iff hP]
    refine forall₂_congr fun req q => ?_
    have hrow : .execute req q ∉ rows := hrows.ofKind.not_mem (by simp [kind])
    have hres : .execute req q ∉ reserve := hreserve.ofKind.not_mem (by simp [kind])
    rw [List.mem_append, List.mem_append, or_iff_right hrow, or_iff_right hres]

theorem Reservation.nothing {reservationId : String}
    (h : Reservation reservationId false none calls) : calls = [] := by
  cases h with
  | skipped => rfl

/-- An execution that was not asked to reserve closes no reservation. -/
theorem Trail.closes_nothing (h : Trail rebalanceId false r calls) :
    OfKind [.insertion, .row, .note, .reservation, .attempt, .parking] calls := by
  cases h with
  | unpaid _ _ hkinds _ => exact hkinds.mono (by simp)
  | paid rowId reservationId reserved rows reserve calls hrows _ hreserve hasked hpaid =>
    obtain rfl := hasked rfl
    obtain rfl := hreserve.nothing
    obtain ⟨attempts, record, close, notes, rfl, hcarried, hrecord, hclose, hnotes⟩ := hpaid
    obtain rfl := hclose.stays (.inl rfl)
    exact (hrows.ofKind.mono (by simp)).append ((OfKind.nil _).append
      (((carried_ofKind hcarried).mono (by simp)).append
        ((hrecord.ofKind.mono (by simp)).append ((OfKind.nil _).append (hnotes.mono (by simp))))))

theorem Trail.grants_nothing (h : Trail rebalanceId false r calls)
    (req : ReserveRequest) : .reserveBudget req none ∉ calls := by
  cases h with
  | unpaid _ _ _ hno => exact hno req
  | paid rowId reservationId reserved rows reserve calls hrows _ hreserve hasked hpaid =>
    obtain rfl := hasked rfl
    obtain rfl := hreserve.nothing
    intro hmem
    rcases List.mem_append.mp hmem with h | h
    · exact hrows.ofKind.not_mem (by simp [kind]) h
    · exact hpaid.ofKind.not_mem (by simp [kind]) h

end Trail

end Execution

end EngineTrail
