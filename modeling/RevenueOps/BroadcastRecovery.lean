import RevenueOps.BroadcastHost
import RevenueOps.FeeBroadcasterLaw

/-! The broadcaster over crashes and restarts: what is durable before a request is written, and why
a request of unknown fate stops every batch that starts after it. -/
namespace FeeBroadcaster

open FallibleState SqlTransaction KeyedTable FeeRunway FeeTables InteractiveProgram JsonValue

section Ledger

def StoreCommand.Records (c : StoreCommand) (id : ℕ) (outcome : BroadcastAttemptOutcome) : Prop :=
  ∃ outcomeDetail completedAt, c = recordBroadcastAttemptResult id outcome outcomeDetail completedAt

def HasAttempt (t : FeeTables) (id : ℕ) (intent : BroadcastAttemptIntent) : Prop :=
  ∃ r ∈ t.attempts.rows, r.id = id ∧ r.intent = intent

/-- Attempts and queued commands in accord: no ambiguous outcome without a quarantine, and no
outcome for an attempt that is not on record. -/
structure Ledger (t : FeeTables) (queue : List StoreCommand) : Prop where
  ambiguous : ∀ r ∈ t.attempts.rows, r.outcome = some .ambiguous → t.Quarantined
  queued : ∀ c ∈ queue, ∀ id, c.Records id .ambiguous → t.Quarantined
  known : ∀ c ∈ queue, ∀ id outcome, c.Records id outcome → ∃ intent, HasAttempt t id intent

/-- What makes a restart quarantine: an attempt without an outcome that no queued command will
give it, unless the quarantine is active already. -/
def Standing (t : FeeTables) (queue : List StoreCommand) (id : ℕ) : Prop :=
  t.Quarantined ∨ (∃ r ∈ t.attempts.rows, r.id = id ∧ r.outcome = none) ∧
    ∀ c ∈ queue, ∀ outcome, ¬ c.Records id outcome

variable {t u : FeeTables} {c : StoreCommand} {queue rest : List StoreCommand} {id : ℕ}
  {intent : BroadcastAttemptIntent}

theorem mem_setOutcome {outcome : BroadcastAttemptOutcome} {detail : Option String} {now : ℤ}
    {r : AttemptRecord} : r ∈ (t.setOutcome id outcome detail now).attempts.rows ↔
      ∃ q ∈ t.attempts.rows, r = if q.id = id then q.resolve outcome detail now else q := by
  simp only [FeeTables.setOutcome, Table.updateWhere, List.mem_map, decide_eq_true_eq]
  constructor
  · rintro ⟨q, hq, rfl⟩
    exact ⟨q, hq, rfl⟩
  · rintro ⟨q, hq, rfl⟩
    exact ⟨q, hq, rfl⟩

theorem mem_resolveOrphans {now : ℤ} {r : AttemptRecord} :
    r ∈ (t.resolveOrphans now).attempts.rows ↔ ∃ q ∈ t.attempts.rows,
      r = if q.outcome.isNone then q.resolve .ambiguous (some reconciledDetail) now else q := by
  simp only [FeeTables.resolveOrphans, Table.updateWhere, List.mem_map]
  constructor
  · rintro ⟨q, hq, rfl⟩
    exact ⟨q, hq, rfl⟩
  · rintro ⟨q, hq, rfl⟩
    exact ⟨q, hq, rfl⟩

theorem hasAttempt_resolveOrphans (now : ℤ) (h : HasAttempt t id intent) :
    HasAttempt (t.resolveOrphans now) id intent := by
  obtain ⟨r, hr, rfl, rfl⟩ := h
  refine ⟨_, mem_resolveOrphans.mpr ⟨r, hr, rfl⟩, ?_⟩
  split <;> exact ⟨rfl, rfl⟩

theorem Writes.hasAttempt {a : c.Result} (h : c.Writes t a u) (hrow : HasAttempt t id intent) :
    HasAttempt u id intent := by
  cases c with
  | activeExecutionQuarantine => exact h.2 ▸ hrow
  | currentStateGeneration => exact h.2 ▸ hrow
  | insertBroadcastAttempt other =>
    obtain ⟨r, hr, hrid⟩ := hrow
    refine ⟨r, ?_, hrid⟩
    rw [(insertAttempt_eq h.2).2]
    exact List.mem_append_left _ hr
  | recordBroadcastAttemptResult other outcome detail now =>
    obtain ⟨r, hr, rfl, rfl⟩ := hrow
    rw [h.1]
    refine ⟨_, mem_setOutcome.mpr ⟨r, hr, rfl⟩, ?_⟩
    split <;> exact ⟨rfl, rfl⟩
  | insertExecutionQuarantine entry =>
    unfold HasAttempt
    rw [(insertQuarantineRow_eq h.2).1]
    exact hrow
  | reconcileQuarantineOnRestart now =>
    cases h with
    | idle _ => exact hrow
    | restored _ _ => exact hasAttempt_resolveOrphans _ hrow
    | entered _ hu =>
      have hkept := hasAttempt_resolveOrphans now hrow
      unfold HasAttempt at hkept ⊢
      rw [(insertQuarantineRow_eq hu).1]
      exact hkept

theorem Writes.ambiguous {a : c.Result} (h : c.Writes t a u)
    (ht : ∀ r ∈ t.attempts.rows, r.outcome = some .ambiguous → t.Quarantined)
    (hc : ∀ id, c.Records id .ambiguous → t.Quarantined) :
    ∀ r ∈ u.attempts.rows, r.outcome = some .ambiguous → u.Quarantined := by
  intro r hr hambiguous
  cases c with
  | activeExecutionQuarantine =>
    obtain ⟨-, rfl⟩ := h
    exact ht r hr hambiguous
  | currentStateGeneration =>
    obtain ⟨-, rfl⟩ := h
    exact ht r hr hambiguous
  | insertBroadcastAttempt intent =>
    have hkeep := Writes.quarantined (c := .insertBroadcastAttempt intent) h
    rw [(insertAttempt_eq h.2).2] at hr
    rcases List.mem_append.mp hr with hr | hr
    · exact hkeep (ht r hr hambiguous)
    · rw [List.mem_singleton.mp hr] at hambiguous
      cases hambiguous
  | recordBroadcastAttemptResult id outcome detail now =>
    have hkeep := Writes.quarantined (c := .recordBroadcastAttemptResult id outcome detail now) h
    rw [h.1] at hr
    obtain ⟨q, hq, rfl⟩ := mem_setOutcome.mp hr
    split at hambiguous
    · cases hambiguous
      exact hkeep (hc id ⟨detail, now, rfl⟩)
    · exact hkeep (ht q hq hambiguous)
  | insertExecutionQuarantine entry => exact (insertQuarantineRow_eq h.2).2.1
  | reconcileQuarantineOnRestart now =>
    cases h with
    | idle _ => exact ht r hr hambiguous
    | restored _ hactive => exact hactive
    | entered _ hu => exact (insertQuarantineRow_eq hu).2.1

theorem Ledger.writes {a : c.Result} (h : Ledger t queue) (hw : c.Writes t a u)
    (hc : ∀ id, c.Records id .ambiguous → t.Quarantined) : Ledger u queue := by
  constructor
  · exact Writes.ambiguous hw h.ambiguous hc
  · exact fun d hd id hrecords => Writes.quarantined hw (h.queued d hd id hrecords)
  · intro d hd id outcome hrecords
    obtain ⟨intent, hintent⟩ := h.known d hd id outcome hrecords
    exact ⟨intent, Writes.hasAttempt hw hintent⟩

theorem Ledger.mono (h : Ledger t queue) (hrest : ∀ c ∈ rest, c ∈ queue) : Ledger t rest :=
  ⟨h.ambiguous, fun c hc => h.queued c (hrest c hc), fun c hc => h.known c (hrest c hc)⟩

theorem Ledger.enqueue (h : Ledger t queue) (hc : ∀ id, c.Records id .ambiguous → t.Quarantined)
    (hknown : ∀ id outcome, c.Records id outcome → ∃ intent, HasAttempt t id intent) :
    Ledger t (queue ++ [c]) := by
  constructor
  · exact h.ambiguous
  · intro d hd
    rcases List.mem_append.mp hd with hd | hd
    · exact h.queued d hd
    · rw [List.mem_singleton.mp hd]
      exact hc
  · intro d hd
    rcases List.mem_append.mp hd with hd | hd
    · exact h.known d hd
    · rw [List.mem_singleton.mp hd]
      exact hknown

theorem Standing.mono (h : Standing t queue id) (hrest : ∀ c ∈ rest, c ∈ queue) :
    Standing t rest id := h.imp (fun h => h) fun h => ⟨h.1, fun c hc => h.2 c (hrest c hc)⟩

theorem Standing.enqueue (h : Standing t queue id)
    (hc : t.Quarantined ∨ ∀ outcome, ¬ c.Records id outcome) : Standing t (queue ++ [c]) id := by
  rcases h with h | ⟨hrow, hqueue⟩
  · exact .inl h
  · rcases hc with hc | hc
    · exact .inl hc
    · refine .inr ⟨hrow, fun d hd => ?_⟩
      rcases List.mem_append.mp hd with hd | hd
      · exact hqueue d hd
      · rw [List.mem_singleton.mp hd]
        exact hc

theorem reconciled_quarantines {now : ℤ} (h : Standing t queue id) (hr : Reconciled t now u) :
    u.Quarantined := by
  rcases h with h | ⟨⟨r, hr', -, hnone⟩, -⟩
  · exact Writes.quarantined (c := .reconcileQuarantineOnRestart now) (a := 0) hr h
  · cases hr with
    | idle hidle =>
      have hmem := mem_unresolved.mpr ⟨hr', hnone⟩
      rw [hidle] at hmem
      cases hmem
    | restored _ hactive => exact hactive
    | entered _ hu => exact (insertQuarantineRow_eq hu).2.1

theorem Standing.writes {a : c.Result} (h : Standing t queue id) (hw : c.Writes t a u)
    (hc : ∀ outcome, ¬ c.Records id outcome) : Standing u queue id := by
  rcases h with h | ⟨⟨r, hr, hid, hnone⟩, hqueue⟩
  · exact .inl (Writes.quarantined hw h)
  cases c with
  | activeExecutionQuarantine =>
    obtain ⟨-, rfl⟩ := hw
    exact .inr ⟨⟨r, hr, hid, hnone⟩, hqueue⟩
  | currentStateGeneration =>
    obtain ⟨-, rfl⟩ := hw
    exact .inr ⟨⟨r, hr, hid, hnone⟩, hqueue⟩
  | insertBroadcastAttempt intent =>
    refine .inr ⟨⟨r, ?_, hid, hnone⟩, hqueue⟩
    rw [(insertAttempt_eq hw.2).2]
    exact List.mem_append_left _ hr
  | recordBroadcastAttemptResult other outcome detail now =>
    refine .inr ⟨⟨r, ?_, hid, hnone⟩, hqueue⟩
    rw [hw.1]
    refine mem_setOutcome.mpr ⟨r, hr, ?_⟩
    have hne : r.id ≠ other := by
      rintro rfl
      exact hc outcome ⟨detail, now, by rw [hid]⟩
    rw [if_neg hne]
  | insertExecutionQuarantine entry => exact .inl (insertQuarantineRow_eq hw.2).2.1
  | reconcileQuarantineOnRestart now =>
    exact .inl (reconciled_quarantines (.inr ⟨⟨r, hr, hid, hnone⟩, hqueue⟩) hw)

end Ledger

section Invariant

variable {s t : Host} {id : ℕ} {intent : BroadcastAttemptIntent}

/-- The request was written and neither a success nor an explicit rejection came back. -/
def WireWrite.InDoubt (w : WireWrite) : Prop :=
  w.reply = none ∨ ∃ reply detail, w.reply = some reply ∧ reply.classify = .ambiguous detail

def InDoubt (wire : List WireWrite) : Prop := ∃ w ∈ wire, w.InDoubt

def Blocked (s : Host) : Prop := s.poisoned = true ∨ s.tables.Quarantined

theorem drift_wire (h : Drifts s t) : t.wire = s.wire := by cases h <;> rfl

theorem drift_poisoned (h : Drifts s t) : t.poisoned = s.poisoned := by cases h <;> rfl

theorem drift_ledger (h : Drifts s t) (hs : Ledger s.tables s.queue) : Ledger t.tables t.queue := by
  cases h with
  | @lands i c hc faults =>
    have hmem : c ∈ s.queue := List.mem_of_getElem? hc
    refine Ledger.mono ?_ fun d hd => List.mem_of_mem_eraseIdx hd
    exact call_keeps hs fun a u ha => hs.writes ha (hs.queued c hmem)
  | lost i => exact hs.mono fun d hd => List.mem_of_mem_eraseIdx hd
  | commits commit faults =>
    obtain ⟨hattempts, hquarantine⟩ := commit_keeps commit faults s.tables
    have hq : (call (commitFeeCycle commit) faults s.tables).2.Quarantined ↔
        s.tables.Quarantined := by
      unfold FeeTables.Quarantined
      rw [hquarantine]
    constructor
    · rw [Host.after, hattempts, hq]
      exact hs.ambiguous
    · rw [Host.after, hq]
      exact hs.queued
    · unfold HasAttempt
      rw [Host.after, hattempts]
      exact hs.known

theorem drift_standing (h : Drifts s t) (hs : Standing s.tables s.queue id) :
    Standing t.tables t.queue id := by
  cases h with
  | @lands i c hc faults =>
    have hmem : c ∈ s.queue := List.mem_of_getElem? hc
    have hrest : ∀ d ∈ s.queue.eraseIdx i, d ∈ s.queue := fun d hd => List.mem_of_mem_eraseIdx hd
    rcases hs with hquarantined | hrow
    · exact .inl (call_keeps hquarantined fun a u ha => Writes.quarantined ha hquarantined)
    · exact (call_keeps (A := fun u => Standing u s.queue id) (.inr hrow) fun a u ha =>
        Standing.writes (.inr hrow) ha (hrow.2 c hmem)).mono hrest
  | lost i => exact hs.mono fun d hd => List.mem_of_mem_eraseIdx hd
  | commits commit faults =>
    obtain ⟨hattempts, hquarantine⟩ := commit_keeps commit faults s.tables
    unfold Standing FeeTables.Quarantined at hs ⊢
    rw [Host.after, hattempts, hquarantine]
    exact hs

theorem drift_hasAttempt (h : Drifts s t) (hs : HasAttempt s.tables id intent) :
    HasAttempt t.tables id intent := by
  cases h with
  | lands hc faults => exact call_keeps hs fun a u ha => Writes.hasAttempt ha hs
  | lost i => exact hs
  | commits commit faults =>
    unfold HasAttempt at hs ⊢
    rw [Host.after, (commit_keeps commit faults s.tables).1]
    exact hs

theorem stable_wire (A : List WireWrite → Prop) : hostWorld.Stable fun s => A s.wire := by
  intro s t hs h
  rwa [drift_wire h]

theorem stable_standing : hostWorld.Stable fun s => Standing s.tables s.queue id :=
  fun _ _ hs h => drift_standing h hs

theorem stable_hasAttempt : hostWorld.Stable fun s => HasAttempt s.tables id intent :=
  fun _ _ hs h => drift_hasAttempt h hs

theorem stable_blocked : hostWorld.Stable Blocked := by
  rintro s t (hs | hs) h
  · exact .inl ((drift_poisoned h).trans hs)
  · exact .inr (drifts_quarantined s t hs h)

theorem awaited_hasAttempt (hs : HasAttempt s.tables id intent) {c : StoreCommand}
    {w : StoreReceiptWait c.Result} (h : Awaited c s w t) : HasAttempt t.tables id intent := by
  cases (Awaited.touched h).1 with
  | same h => rwa [h]
  | ran d faults h =>
    rw [h]
    exact call_keeps hs fun a u ha => Writes.hasAttempt ha hs

theorem awaited_standing (hs : Standing s.tables s.queue id) {c : StoreCommand}
    {w : StoreReceiptWait c.Result} (hc : ∀ outcome, ¬ c.Records id outcome)
    (h : Awaited c s w t) : Standing t.tables t.queue id := by
  cases h with
  | receipt h =>
    cases h with
    | replied faults _ =>
      exact call_keeps (A := fun u => Standing u s.queue id) hs fun a u ha => hs.writes ha hc
    | unknown => exact hs.enqueue (.inr hc)
  | gone => exact hs
  | dropped => exact hs.enqueue (.inr hc)

theorem not_records_insert (entry : QuarantineEntry) (id : ℕ) (outcome : BroadcastAttemptOutcome) :
    ¬ (StoreCommand.insertExecutionQuarantine entry).Records id outcome := by
  rintro ⟨d, n, h⟩
  cases h

theorem records_self {outcome : BroadcastAttemptOutcome} {detail : Option String} {now : ℤ} :
    ∀ other o, (StoreCommand.recordBroadcastAttemptResult id outcome detail now).Records other o →
      other = id ∧ o = outcome := by
  rintro other o ⟨d, n, h⟩
  cases h
  exact ⟨rfl, rfl⟩

theorem awaited_wire (A : List WireWrite → Prop) (c : StoreCommand)
    (w : StoreReceiptWait c.Result) (s t : Host) (hs : A s.wire) (h : Awaited c s w t) :
    A t.wire := by
  rw [(Awaited.touched h).2.2]
  exact hs

theorem awaited_quarantined (c : StoreCommand) (w : StoreReceiptWait c.Result) (s t : Host)
    (hs : s.tables.Quarantined) (h : Awaited c s w t) : t.tables.Quarantined :=
  (Awaited.touched h).1.quarantined hs

theorem inDoubt_append {wire : List WireWrite} {w : WireWrite} :
    InDoubt (wire ++ [w]) ↔ InDoubt wire ∨ w.InDoubt := by
  simp only [InDoubt, List.mem_append, List.mem_singleton, or_and_right, exists_or,
    exists_eq_left]

variable [SerdeJson]

/-- An attempt with the same parameters was on record when the request was written. -/
def WireWrite.Ahead (w : WireWrite) : Prop :=
  ∃ r ∈ w.ledger, r.intent.method = setchannelMethod ∧
    r.intent.paramsJson = SerdeJson.toString w.params

structure Durable (s : Host) : Prop where
  ahead : ∀ w ∈ s.wire, w.Ahead
  ledger : Ledger s.tables s.queue
  standing : InDoubt s.wire → ∃ id, Standing s.tables s.queue id

theorem stable_durable : hostWorld.Stable Durable := by
  intro s t hs h
  constructor
  · rw [drift_wire h]
    exact hs.ahead
  · exact drift_ledger h hs.ledger
  · intro hdoubt
    rw [drift_wire h] at hdoubt
    obtain ⟨id, hid⟩ := hs.standing hdoubt
    exact ⟨id, drift_standing h hid⟩

/-- Commands that write no outcome leave the invariant alone, however they are answered. -/
theorem Durable.awaited (hs : Durable s) {c : StoreCommand} {w : StoreReceiptWait c.Result}
    (hc : ∀ id outcome, ¬ c.Records id outcome) (h : Awaited c s w t) : Durable t := by
  have henqueue : Durable (s.enqueue c) := by
    constructor
    · exact hs.ahead
    · exact hs.ledger.enqueue (fun id hid => absurd hid (hc id _))
        fun id outcome hid => absurd hid (hc id outcome)
    · intro hdoubt
      obtain ⟨id, hid⟩ := hs.standing hdoubt
      exact ⟨id, hid.enqueue (.inr (hc id))⟩
  cases h with
  | receipt h =>
    cases h with
    | replied faults _ =>
      constructor
      · exact hs.ahead
      · exact call_keeps hs.ledger fun a u ha =>
          hs.ledger.writes ha fun id hid => absurd hid (hc id _)
      · intro hdoubt
        obtain ⟨id, hid⟩ := hs.standing hdoubt
        exact ⟨id, call_keeps (A := fun u => Standing u s.queue id) hid fun a u ha =>
          hid.writes ha (hc id)⟩
    | unknown => exact henqueue
  | gone => exact hs
  | dropped => exact henqueue

/-- The outcome of a known attempt, while no request is in doubt or the quarantine is active. -/
theorem Durable.recorded (hs : Durable s) {outcome : BroadcastAttemptOutcome}
    (hrow : HasAttempt s.tables id intent)
    (hsafe : s.tables.Quarantined ∨ outcome ≠ .ambiguous ∧ ¬ InDoubt s.wire) {c : StoreCommand}
    (hc : ∀ other o, c.Records other o → other = id ∧ o = outcome)
    {w : StoreReceiptWait c.Result} (h : Awaited c s w t) :
    Durable t ∧ t.wire = s.wire ∧ HasAttempt t.tables id intent := by
  have hambiguous : ∀ other, c.Records other .ambiguous → s.tables.Quarantined := by
    intro other hrecords
    rcases hsafe with hsafe | ⟨hne, -⟩
    · exact hsafe
    · exact absurd (hc other _ hrecords).2.symm hne
  have henqueue : Durable (s.enqueue c) := by
    constructor
    · exact hs.ahead
    · refine hs.ledger.enqueue hambiguous fun other o hrecords => ⟨intent, ?_⟩
      rw [(hc other o hrecords).1]
      exact hrow
    · intro hdoubt
      rcases hsafe with hsafe | ⟨-, hnone⟩
      · exact ⟨0, .inl hsafe⟩
      · exact absurd hdoubt hnone
  cases h with
  | receipt h =>
    cases h with
    | replied faults _ =>
      refine ⟨⟨hs.ahead, ?_, ?_⟩, rfl, ?_⟩
      · exact call_keeps hs.ledger fun a u ha => hs.ledger.writes ha hambiguous
      · intro hdoubt
        rcases hsafe with hsafe | ⟨-, hnone⟩
        · exact ⟨0, .inl (call_keeps hsafe fun a u ha => Writes.quarantined ha hsafe)⟩
        · exact absurd hdoubt hnone
      · exact call_keeps hrow fun a u ha => Writes.hasAttempt ha hrow
    | unknown => exact ⟨henqueue, rfl, hrow⟩
  | gone => exact ⟨hs, rfl, hrow⟩
  | dropped => exact ⟨henqueue, rfl, hrow⟩

end Invariant

section Program

variable [SerdeJson] {α : Type} {b : Broadcaster} {request : PersistedFeeRequest}
  {s t : Host} {id : ℕ} {intent : BroadcastAttemptIntent} {A : Host → Prop} {Q : α → Host → Prop}

def Clear (s : Host) : Prop := Durable s ∧ ¬ InDoubt s.wire

/-- Between two batches: a request in doubt blocks the next one. -/
def Resting (s : Host) : Prop := Durable s ∧ (InDoubt s.wire → Blocked s)

def Doubtful (id : ℕ) (intent : BroadcastAttemptIntent) (s : Host) : Prop :=
  Durable s ∧ HasAttempt s.tables id intent ∧ Standing s.tables s.queue id

def Recording (id : ℕ) (intent : BroadcastAttemptIntent) (s : Host) : Prop :=
  Clear s ∧ HasAttempt s.tables id intent

theorem stable_clear : hostWorld.Stable Clear :=
  stable_durable.and (stable_wire fun wire => ¬ InDoubt wire)

theorem stable_recording : hostWorld.Stable (Recording id intent) :=
  stable_clear.and stable_hasAttempt

theorem stable_doubtful : hostWorld.Stable (Doubtful id intent) :=
  stable_durable.and (stable_hasAttempt.and stable_standing)

/-- Between the flag's read and the quarantine's: only the quarantine can stand for a doubt. -/
def Guarded (s : Host) : Prop := Durable s ∧ (InDoubt s.wire → s.tables.Quarantined)

theorem Guarded.resting (h : Guarded s) : Resting s := ⟨h.1, fun hdoubt => .inr (h.2 hdoubt)⟩

theorem stable_resting : hostWorld.Stable Resting := by
  intro s t hs h
  refine ⟨stable_durable s t hs.1 h, fun hdoubt => stable_blocked s t (hs.2 ?_) h⟩
  rwa [drift_wire h] at hdoubt

theorem stable_guarded : hostWorld.Stable Guarded := by
  intro s t hs h
  refine ⟨stable_durable s t hs.1 h, fun hdoubt => drifts_quarantined s t (hs.2 ?_) h⟩
  rwa [drift_wire h] at hdoubt

theorem Clear.resting (h : Clear s) : Resting s := ⟨h.1, fun hdoubt => absurd hdoubt h.2⟩

theorem awaited_clear (hs : Clear s) {c : StoreCommand} {w : StoreReceiptWait c.Result}
    (hc : ∀ id outcome, ¬ c.Records id outcome) (h : Awaited c s w t) : Clear t := by
  refine ⟨hs.1.awaited hc h, ?_⟩
  rw [(Awaited.touched h).2.2]
  exact hs.2

theorem awaited_doubtful (hs : Doubtful id intent s) {c : StoreCommand}
    {w : StoreReceiptWait c.Result} (hc : ∀ id outcome, ¬ c.Records id outcome)
    (h : Awaited c s w t) : Doubtful id intent t :=
  ⟨hs.1.awaited hc h, awaited_hasAttempt hs.2.1 h, awaited_standing hs.2.2 (hc id) h⟩

theorem safe_silent {op : Op} {next : Reply op → Broadcast α}
    (hop : ∀ s r t, hostWorld.answers op s r t → t = s) (hA : hostWorld.Stable A) (hs : A s)
    (hI : ∀ s, A s → Durable s)
    (hnext : ∀ r t, A t → hostWorld.Safe Durable Q (next r) t) :
    hostWorld.Safe Durable Q (.call op next) s := by
  refine World.Safe.call hA hs hI fun t r u ht hr => ?_
  rw [hop t r u hr]
  exact hnext r t ht

theorem poisoned_clear (hs : Clear s) : Clear { s with poisoned := true } :=
  ⟨⟨hs.1.ahead, hs.1.ledger, hs.1.standing⟩, hs.2⟩

theorem safe_storePoisoned {next : Unit → Broadcast α} {B : Host → Prop} (hA : hostWorld.Stable A)
    (hs : A s) (hI : ∀ s, A s → Durable s) (hset : ∀ s, A s → B { s with poisoned := true })
    (hnext : ∀ t, B t → hostWorld.Safe Durable Q (next ()) t) :
    hostWorld.Safe Durable Q (.call .storePoisoned next) s := by
  refine World.Safe.call hA hs hI fun t r u ht hr => ?_
  cases hr
  exact hnext _ (hset t ht)

theorem safe_ret_clear {a : α} (hs : Clear s) (hQ : ∀ t, Clear t → Q a t) :
    hostWorld.Safe Durable Q (.ret a) s := World.Safe.ret stable_clear hs (fun _ h => h.1) hQ

/-- What a finished request leaves: an error may leave doubt behind a stop, a
success leaves none. -/
def After (r : Except BroadcastError BatchRequestOutcome) (s : Host) : Prop :=
  Resting s ∧ ∀ o, r = .ok o → Clear s

theorem Clear.after {r : Except BroadcastError BatchRequestOutcome} (h : Clear s) : After r s :=
  ⟨h.resting, fun _ _ => h⟩

theorem safe_blocked {e : BroadcastError} (hA : hostWorld.Stable A) (hs : Durable s) (hAs : A s)
    (hblocked : ∀ t, A t → Blocked t) : hostWorld.Safe Durable After (.ret (.error e)) s :=
  World.Safe.ret (stable_durable.and hA) ⟨hs, hAs⟩ (fun _ h => h.1) fun t ht =>
    ⟨⟨ht.1, fun _ => hblocked t ht.2⟩, fun o ho => by cases ho⟩

theorem safe_setBlocked {e : BroadcastError} (hA : hostWorld.Stable A) (hs : A s)
    (hI : ∀ s, A s → Durable s) :
    hostWorld.Safe Durable After (.call .storePoisoned fun _ => .ret (.error e)) s := by
  refine safe_storePoisoned (B := fun t => Durable t ∧ t.poisoned = true) hA hs hI ?_ ?_
  · intro t ht
    have hdurable := hI t ht
    exact ⟨⟨hdurable.ahead, hdurable.ledger, hdurable.standing⟩, rfl⟩
  · exact fun t ht => safe_blocked (drifts_poisoned true) ht.1 ht.2 fun _ h => .inl h

/-- An attempt on record and nothing in doubt, ready for its request to be written. -/
def Prepared (id : ℕ) (intent : BroadcastAttemptIntent) (s : Host) : Prop :=
  Recording id intent s ∧ Standing s.tables s.queue id

/-- The last request on the wire is the one of the attempt, and the others are settled. -/
def Sent (handle id : ℕ) (intent : BroadcastAttemptIntent) (s : Host) : Prop :=
  Doubtful id intent s ∧ ∃ before w, s.wire = before ++ [w] ∧ before.length = handle ∧
    ¬ InDoubt before

theorem stable_prepared : hostWorld.Stable (Prepared id intent) :=
  stable_recording.and stable_standing

theorem stable_sent {handle : ℕ} : hostWorld.Stable (Sent handle id intent) :=
  stable_doubtful.and (stable_wire fun wire => ∃ before w, wire = before ++ [w] ∧
    before.length = handle ∧ ¬ InDoubt before)

theorem Prepared.doubtful (h : Prepared id intent s) : Doubtful id intent s :=
  ⟨h.1.1.1, h.1.2, h.2⟩

theorem Prepared.written (hs : Prepared id intent s) {request : PersistedFeeRequest}
    (hmethod : intent.method = setchannelMethod)
    (hparams : intent.paramsJson = SerdeJson.toString request.toParams) :
    Sent s.wire.length id intent
      { s with wire := s.wire ++ [⟨request.toParams, s.tables.attempts.rows, none⟩] } := by
  refine ⟨⟨⟨?_, hs.1.1.1.ledger, fun _ => ⟨id, hs.2⟩⟩, hs.1.2, hs.2⟩, s.wire, _, rfl, rfl, hs.1.1.2⟩
  intro w hw
  rcases List.mem_append.mp hw with hw | hw
  · exact hs.1.1.1.ahead w hw
  · rw [List.mem_singleton.mp hw]
    obtain ⟨r, hr, -, rfl⟩ := hs.1.2
    exact ⟨r, hr, hmethod, hparams⟩

theorem Sent.replied {handle : ℕ} (hs : Sent handle id intent s) (reply : CallReply) :
    Doubtful id intent { s with wire := s.wire.modify handle fun w =>
      { w with reply := some reply } } ∧
      ((∀ detail, reply.classify ≠ .ambiguous detail) →
        ¬ InDoubt (s.wire.modify handle fun w => { w with reply := some reply })) := by
  obtain ⟨hdoubtful, before, w, hwire, rfl, hbefore⟩ := hs
  have hmodify : s.wire.modify before.length (fun w => { w with reply := some reply }) =
      before ++ [{ w with reply := some reply }] := by
    rw [hwire, List.modify_eq_take_cons_drop (by simp)]
    simp
  rw [hmodify]
  constructor
  · refine ⟨⟨?_, hdoubtful.1.ledger, fun _ => ⟨id, hdoubtful.2.2⟩⟩, hdoubtful.2⟩
    intro v hv
    have hahead := hdoubtful.1.ahead
    rw [hwire] at hahead
    rcases List.mem_append.mp hv with hv | hv
    · exact hahead v (List.mem_append_left _ hv)
    · rw [List.mem_singleton.mp hv]
      exact hahead w (List.mem_append_right _ (List.mem_singleton_self w))
  · intro hclear hdoubt
    rcases inDoubt_append.mp hdoubt with hdoubt | hnone | ⟨r, detail, hr, hdetail⟩
    · exact hbefore hdoubt
    · cases hnone
    · cases hr
      exact hclear detail hdetail

theorem safe_attemptSend (hs : Prepared id intent s) (hmethod : intent.method = setchannelMethod)
    (hparams : intent.paramsJson = SerdeJson.toString request.toParams) :
    hostWorld.Safe Durable (fun outcome t => Doubtful id intent t ∧
      ((∀ detail, outcome ≠ .ambiguous detail) → ¬ InDoubt t.wire)) (attemptSend request) s := by
  refine safe_silent (fun _ _ _ h => h) stable_prepared hs (fun _ h => h.1.1.1)
    fun reply t ht => ?_
  have hclean : ∀ detail, hostWorld.Safe Durable (fun outcome t => Doubtful id intent t ∧
      ((∀ detail, outcome ≠ .ambiguous detail) → ¬ InDoubt t.wire))
      (.ret (.cleanFailure detail) : Broadcast SendOutcome) t := fun detail =>
    World.Safe.ret stable_prepared ht (fun _ h => h.1.1.1) fun _ h => ⟨h.doubtful, fun _ => h.1.1.2⟩
  cases reply with
  | timedOut => exact hclean _
  | failed text => exact hclean _
  | connected =>
    refine World.Safe.call stable_prepared ht (fun _ h => h.1.1.1) fun t handle u ht hwrite => ?_
    obtain ⟨rfl, rfl⟩ := hwrite
    refine World.Safe.call stable_sent (ht.written hmethod hparams) (fun _ h => h.1.1)
      fun u reply v hu hreply => ?_
    cases hreply
    obtain ⟨hdoubtful, hclear⟩ := hu.replied reply
    exact World.Safe.ret (stable_doubtful.and (stable_wire fun wire =>
      (∀ detail, reply.classify ≠ .ambiguous detail) → ¬ InDoubt wire)) ⟨hdoubtful, hclear⟩
      (fun _ h => h.1.1) fun _ h => h

/-- A confirmed intent is on record under an id that no queued command names. -/
theorem Clear.prepared (hs : Clear s) (h : Receipt (.insertBroadcastAttempt intent) s
    (.replied (.ok id)) t) : Prepared id intent t := by
  obtain ⟨⟨rfl, hinsert⟩, ht⟩ := h.confirmed
  have hclear : Clear t := awaited_clear hs (by rintro id outcome ⟨d, n, h⟩; cases h) (.receipt h)
  have hrow : (⟨s.tables.attempts.nextKey, intent, none, none, none⟩ : AttemptRecord) ∈
      t.tables.attempts.rows := by
    rw [(insertAttempt_eq hinsert).2]
    exact List.mem_append_right _ (List.mem_singleton_self _)
  refine ⟨⟨hclear, ⟨_, hrow, rfl, rfl⟩⟩,
    .inr ⟨⟨_, hrow, rfl, rfl⟩, fun c hc outcome hrecords => ?_⟩⟩
  rw [ht] at hc
  obtain ⟨other, r, hr, hid, -⟩ := hs.1.ledger.known c hc _ outcome hrecords
  have hlt := lt_nextKey hr
  omega

variable [StoreErrorText]

theorem safe_quarantine (b : Broadcaster) (request : PersistedFeeRequest) (detail : String)
    (hA : hostWorld.Stable A) (hs : A s)
    (hI : ∀ s, A s → Durable s)
    (hkeep : ∀ entry s w t, A s → Awaited (.insertExecutionQuarantine entry) s w t → A t) :
    hostWorld.Safe Durable (fun r t => A t ∧ (r = .ok () → t.tables.Quarantined))
      (quarantine b request detail) s := by
  refine safe_silent (fun _ _ _ h => h) hA hs hI fun now t ht => ?_
  refine World.Safe.call hA ht hI fun t wait u ht hwait => ?_
  have hu := hkeep _ t wait u ht hwait
  by_cases hok : ∃ inserted, wait = .replied (.ok inserted)
  · obtain ⟨inserted, rfl⟩ := hok
    refine World.Safe.ret (hA.and drifts_quarantined) ⟨hu, inserted_quarantines hwait⟩
      (fun v hv => hI v hv.1) fun v hv => ⟨hv.1, fun _ => hv.2⟩
  · refine World.Safe.ret hA hu hI fun v hv => ⟨hv, fun hr => ?_⟩
    rcases wait with (e | inserted) | _
    · cases hr
    · exact absurd ⟨inserted, rfl⟩ hok
    · cases hr

theorem safe_quarantine_clear {detail : String} (hs : Clear s) :
    hostWorld.Safe Durable (fun _ => Clear) (quarantine b request detail) s :=
  (safe_quarantine b request detail stable_clear hs (fun _ h => h.1) fun entry _ _ _ ht hw =>
    awaited_clear ht (not_records_insert entry) hw).mono fun _ _ _ h => h.1

theorem safe_poisonedExit {detail : String} {next : Except String Unit → Broadcast α}
    (hs : Clear s) (hnext : ∀ r t, Clear t → hostWorld.Safe Durable Q (next r) t) :
    hostWorld.Safe Durable Q
      (.call .storePoisoned fun _ => quarantine b request detail >>= next) s := by
  refine safe_storePoisoned stable_clear hs (fun _ h => h.1) (fun _ h => poisoned_clear h) ?_
  intro t ht
  exact World.Safe.bind ((safe_quarantine_clear ht).mono fun r u _ hu => hnext r u hu)

/-- An outcome is recorded under an assertion that allows it and that no store call breaks. -/
theorem safe_recordResult {outcome : BroadcastAttemptOutcome} {detail : Option String}
    (hA : hostWorld.Stable A)
    (hkeep : ∀ (c : StoreCommand) (w : StoreReceiptWait c.Result) s t, A s → Awaited c s w t → A t)
    (hallow : ∀ s, A s → s.tables.Quarantined ∨ outcome ≠ .ambiguous ∧ ¬ InDoubt s.wire)
    (hs : Durable s) (hrow : HasAttempt s.tables id intent) (hAs : A s) :
    hostWorld.Safe Durable (fun _ t => Durable t ∧ A t) (recordResult b id outcome detail) s := by
  have hrows : hostWorld.Stable fun s => HasAttempt s.tables id intent := stable_hasAttempt
  have hstable := stable_durable.and (hrows.and hA)
  refine safe_silent (fun _ _ _ h => h) hstable ⟨hs, hrow, hAs⟩ (fun _ h => h.1) fun now t ht => ?_
  refine World.Safe.call hstable ht (fun _ h => h.1) fun t wait u ht hwait => ?_
  obtain ⟨hdurable, -, -⟩ := ht.1.recorded ht.2.1 (hallow t ht.2.2) records_self hwait
  exact World.Safe.ret (stable_durable.and hA) ⟨hdurable, hkeep _ wait t u ht.2.2 hwait⟩
    (fun _ h => h.1) fun _ h => h

theorem safe_resultPersistenceUnknown {rpcOutcome detail : String} (hs : Clear s) :
    hostWorld.Safe Durable (fun _ => Clear) (resultPersistenceUnknown b request rpcOutcome detail)
      s :=
  safe_poisonedExit (b := b) hs fun _ _ hu => safe_ret_clear hu fun _ h => h

theorem safe_recordTerminal {outcome : BroadcastAttemptOutcome} {rpcOutcome : String}
    {detail : Option String} {result : Except BroadcastError BatchRequestOutcome}
    (hs : Recording id intent s) (hne : outcome ≠ .ambiguous) :
    hostWorld.Safe Durable (fun _ => Clear)
      (recordTerminal b request id outcome rpcOutcome detail result) s := by
  have hrecord : hostWorld.Safe Durable (fun _ => Clear) (recordResult b id outcome detail) s :=
    safe_recordResult (stable_wire fun wire => ¬ InDoubt wire)
      (awaited_wire fun wire => ¬ InDoubt wire)
      (fun _ h => .inr ⟨hne, h⟩) hs.1.1 hs.2 hs.1.2
  refine World.Safe.bind (hrecord.mono fun recorded t _ ht => ?_)
  cases recorded with
  | error e =>
    refine World.Safe.bind ((safe_resultPersistenceUnknown ht).mono fun _ u _ hu => ?_)
    exact safe_ret_clear hu fun _ h => h
  | ok _ => exact safe_ret_clear ht fun _ h => h

theorem safe_intentOutcomeUnknown (hs : Clear s) :
    hostWorld.Safe Durable (fun r t => Clear t ∧ ∀ o, r ≠ .ok o)
      (intentOutcomeUnknown b request) s :=
  safe_poisonedExit hs fun _ u hu => safe_ret_clear hu fun _ h => ⟨h, fun o ho => by cases ho⟩

/-- Whether or not the quarantine gets in, the exit of an ambiguous outcome stops what follows. -/
theorem safe_ambiguousExit {detail : String} (hs : Doubtful id intent s) :
    hostWorld.Safe Durable After (ambiguousExit b request id detail) s := by
  have hquarantine := safe_quarantine b request detail
    stable_doubtful hs (fun _ h => h.1) fun entry _ _ _ ht hw =>
    awaited_doubtful ht (not_records_insert entry) hw
  refine World.Safe.bind (hquarantine.mono fun inserted t _ ht => ?_)
  cases inserted with
  | error e => exact safe_setBlocked stable_doubtful ht.1 fun _ h => h.1
  | ok _ =>
    have hrecord : hostWorld.Safe Durable (fun _ u => Durable u ∧ u.tables.Quarantined)
        (recordResult b id .ambiguous (some detail)) t :=
      safe_recordResult drifts_quarantined awaited_quarantined (fun _ h => .inl h) ht.1.1 ht.1.2.1
        (ht.2 rfl)
    refine World.Safe.bind (hrecord.mono fun recorded u _ hu => ?_)
    cases recorded with
    | error e =>
      exact safe_setBlocked (stable_durable.and drifts_quarantined) hu fun _ h => h.1
    | ok _ => exact safe_blocked drifts_quarantined hu.1 hu.2 fun _ h => .inr h

theorem safe_sendRecorded (hs : Prepared id intent s) (hmethod : intent.method = setchannelMethod)
    (hparams : intent.paramsJson = SerdeJson.toString request.toParams) :
    hostWorld.Safe Durable After (sendRecorded b request id) s := by
  refine World.Safe.bind ((safe_attemptSend hs hmethod hparams).mono fun outcome t _ ht => ?_)
  have hrecording : (∀ detail, outcome ≠ .ambiguous detail) → Recording id intent t :=
    fun hclear => ⟨⟨ht.1.1, ht.2 hclear⟩, ht.1.2.1⟩
  cases outcome with
  | success response =>
    exact (safe_recordTerminal (hrecording (by simp)) (by simp)).mono fun _ _ _ h => h.after
  | rejected detail =>
    exact (safe_recordTerminal (hrecording (by simp)) (by simp)).mono fun _ _ _ h => h.after
  | cleanFailure detail =>
    exact (safe_recordTerminal (hrecording (by simp)) (by simp)).mono fun _ _ _ h => h.after
  | ambiguous detail => exact safe_ambiguousExit ht.1

theorem safe_broadcastRequest (hs : Clear s) :
    hostWorld.Safe Durable After (broadcastRequest b request) s := by
  refine safe_silent (fun _ _ _ h => h) stable_clear hs (fun _ h => h.1) fun submittedAt t ht => ?_
  refine World.Safe.call stable_clear ht (fun _ h => h.1) fun t admitted u ht h => ?_
  have hexit : ∀ e, Clear u → hostWorld.Safe Durable After
      (.ret (.error e) : Broadcast (Except BroadcastError BatchRequestOutcome)) u :=
    fun e hu => safe_ret_clear hu fun _ h => h.after
  have hrecords : ∀ intent id outcome,
      ¬ (StoreCommand.insertBroadcastAttempt intent).Records id outcome := by
    rintro intent id outcome ⟨d, n, h⟩
    cases h
  rcases admitted with refused | (e | id) | _
  · cases h
    exact hexit _ ht
  · exact hexit _ (awaited_clear ht (hrecords _) (.receipt h))
  · exact safe_sendRecorded (ht.prepared h) rfl rfl
  · refine (safe_intentOutcomeUnknown (awaited_clear ht (hrecords _) (.receipt h))).mono ?_
    exact fun _ _ _ h => h.1.after

theorem safe_broadcastRequests {requests : List PersistedFeeRequest} :
    ∀ (outcomes : List BatchRequestOutcome) {s : Host}, Clear s →
      hostWorld.Safe Durable (fun _ => Resting) (broadcastRequests b requests outcomes) s := by
  induction requests with
  | nil => exact fun _ _ hs => safe_ret_clear hs fun _ h => h.resting
  | cons request requests ih =>
    intro outcomes s hs
    refine World.Safe.bind ((safe_broadcastRequest hs).mono fun result t _ ht => ?_)
    cases result with
    | error e =>
      refine World.Safe.ret stable_resting ht.1 (fun _ h => h.1) fun _ h => h
    | ok outcome => exact ih (outcomes ++ [outcome]) (ht.2 outcome rfl)

/-- A batch that finds the flag unset and the quarantine empty starts with nothing in doubt. -/
theorem safe_broadcastBatch {authorization : LiveBatchAuthorization}
    {requests : List PersistedFeeRequest} (hs : Resting s) :
    hostWorld.Safe Durable (fun _ => Resting) (broadcastBatch b authorization requests) s := by
  have hexit : ∀ (e : BroadcastError) t, Resting t → hostWorld.Safe Durable (fun _ => Resting)
      (.ret (.error e) : Broadcast (Except BroadcastError BatchReceipt)) t :=
    fun e t ht => World.Safe.ret stable_resting ht (fun _ h => h.1) fun _ h => h
  rw [broadcastBatch_eq]
  refine World.Safe.call stable_resting hs (fun _ h => h.1) fun t poisoned u ht hload => ?_
  obtain ⟨rfl, rfl⟩ := hload
  cases hpoisoned : u.poisoned with
  | true => exact hexit _ u ht
  | false =>
    have hu : Guarded u := ⟨ht.1, fun hdoubt => by simpa [Blocked, hpoisoned] using ht.2 hdoubt⟩
    refine safe_silent (fun _ _ _ h => h) stable_guarded hu (fun _ h => h.1) fun now t ht => ?_
    split
    · exact hexit _ t ht.resting
    · refine World.Safe.call stable_guarded ht (fun _ h => h.1) fun t read u ht hread => ?_
      have hrecords :
          ∀ id outcome, ¬ StoreCommand.activeExecutionQuarantine.Records id outcome := by
        rintro id outcome ⟨d, n, h⟩
        cases h
      by_cases hempty : read = .replied (.ok none)
      · subst hempty
        have hnone : ¬ InDoubt t.wire := fun hdoubt => read_of_quarantined (ht.2 hdoubt) hread rfl
        exact safe_broadcastRequests [] (awaited_clear ⟨ht.1, hnone⟩ hrecords hread)
      · obtain ⟨e, he⟩ : ∃ e, afterRead b requests read = .ret (.error e) :=
          afterRead_refuses hempty
        rw [he]
        refine hexit e u ⟨ht.1.awaited hrecords hread, fun hdoubt => .inr ?_⟩
        rw [(Awaited.touched hread).2.2] at hdoubt
        exact awaited_quarantined _ read t u (ht.2 hdoubt) hread

/-- What a stop does: the batch ends in an error and writes nothing. -/
theorem safe_blockedBatch (b : Broadcaster) (authorization : LiveBatchAuthorization)
    (requests : List PersistedFeeRequest) {wire : List WireWrite} (hs : Blocked s)
    (hwire : s.wire = wire) :
    hostWorld.Safe (fun t => t.wire = wire) (fun result _ => ∃ e, result = .error e)
      (broadcastBatch b authorization requests) s := by
  have hexit : ∀ (e : BroadcastError) t, t.wire = wire → hostWorld.Safe (fun t => t.wire = wire)
      (fun result _ => ∃ e, result = .error e)
      (.ret (.error e) : Broadcast (Except BroadcastError BatchReceipt)) t :=
    fun e t ht => World.Safe.ret (drifts_wire wire) ht (fun _ h => h) fun _ _ => ⟨e, rfl⟩
  rw [broadcastBatch_eq]
  refine World.Safe.call (stable_blocked.and (drifts_wire wire)) ⟨hs, hwire⟩ (fun _ h => h.2)
    fun t poisoned u ht hload => ?_
  obtain ⟨rfl, rfl⟩ := hload
  cases hpoisoned : u.poisoned with
  | true => exact hexit _ u ht.2
  | false =>
    have hu : u.tables.Quarantined := by simpa [Blocked, hpoisoned] using ht.1
    have hstable := drifts_quarantined.and (drifts_wire wire)
    refine World.Safe.call hstable ⟨hu, ht.2⟩ (fun _ h => h.2) fun t now v ht hnow => ?_
    cases hnow
    split
    · exact hexit _ t ht.2
    · refine World.Safe.call hstable ht (fun _ h => h.2) fun t read v ht hread => ?_
      obtain ⟨e, he⟩ : ∃ e, afterRead b requests read = .ret (.error e) :=
        afterRead_refuses (read_of_quarantined ht.1 hread)
      rw [he]
      exact hexit e v ((Awaited.touched hread).2.2.trans ht.2)

/-- The restart: an attempt that still stands is quarantined before there is a broadcaster. -/
theorem safe_newBroadcaster (hs : Durable s) :
    hostWorld.Safe Durable (fun result t => Durable t ∧ (result = .ok () → Guarded t))
      newBroadcaster s := by
  refine safe_silent (fun _ _ _ h => h) stable_durable hs (fun _ h => h) fun now t ht => ?_
  refine World.Safe.call stable_durable ht (fun _ h => h) fun t wait u ht hwait => ?_
  have hu : Durable u := ht.awaited (by rintro id outcome ⟨d, n, h⟩; cases h) hwait
  have hrefused : ∀ e, hostWorld.Safe Durable
      (fun result t => Durable t ∧ (result = .ok () → Guarded t))
      (.ret (.error e) : Broadcast (Except String Unit)) u :=
    fun e => World.Safe.ret stable_durable hu (fun _ h => h) fun _ h => ⟨h, fun hr => by cases hr⟩
  rcases wait with (e | n) | _
  · exact hrefused _
  · refine World.Safe.ret stable_guarded ⟨hu, fun hdoubt => ?_⟩ (fun _ h => h.1) fun _ h =>
      ⟨h.1, fun _ => h⟩
    rw [(Awaited.touched hwait).2.2] at hdoubt
    obtain ⟨id, hid⟩ := ht.standing hdoubt
    exact reconciled_quarantines hid (Awaited.confirmed hwait).1
  · exact hrefused _

end Program

end FeeBroadcaster
