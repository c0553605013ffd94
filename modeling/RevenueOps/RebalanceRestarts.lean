import RevenueOps.RebalanceOwner

/-! The process around the owner of rebalances: it takes submissions, cycles and reconciliations,
crashes at any step, and starts again on the tables that are left. No write gives an attempt its
payment hash before its end, so a reconciliation has nothing to look up. -/
namespace RebalanceOwner

open FallibleState InteractiveProgram JsonValue KeyedTable RebalanceExecution RebalanceRail
open SqlTransaction

section Host

/-- A payment that went out, and the request that it was made for. -/
structure Sent where
  requestId : String
  paymentHash : String

/-- The store with the inserts that were admitted and not heard of, the payments so far, and what
the node would say of a payment now. -/
structure Host where
  tables : RebalanceTables
  pending : List RebalanceAttemptIntent
  sent : List Sent
  sendpays : String → Except String Json

/-- The payment of a request: of several, the last one. -/
def Host.paid (s : Host) (requestId : String) : Option String :=
  (s.sent.filter fun p => p.requestId = requestId).getLast?.map Sent.paymentHash

def Host.pay (s : Host) (requestId : String) (hashes : List String) : Host :=
  { s with sent := s.sent ++ hashes.map fun hash => ⟨requestId, hash⟩ }

def Host.crashed (s : Host) : Host := { s with pending := [] }

def Host.ran (s : Host) (m : Rail Unit) (faults : List (Option Fault)) : Host :=
  { s with tables := (call m faults s.tables).2 }

inductive Receipt (intent : RebalanceAttemptIntent) (s : Host) : IntentReceipt → Host → Prop where
  | refused (reason : StoreAdmissionRefused) : Receipt intent s (.refused reason) s
  | replied (faults : List (Option Fault)) {result : Except String Unit}
      (h : result = .ok () ↔ (call (insertRebalanceAttempt intent) faults s.tables).1 = .ok ()) :
      Receipt intent s (.replied result) (s.ran (insertRebalanceAttempt intent) faults)
  | unknown : Receipt intent s .outcomeUnknown { s with pending := s.pending ++ [intent] }

/-- An error may hide a settlement that was committed. -/
inductive SettleReply (settlement : RebalanceSettle) (s : Host) : Except String Unit → Host → Prop
    where
  | replied (faults : List (Option Fault)) {result : Except String Unit}
      (h : result = .ok () ↔
        (call (settleRebalanceAttempt settlement) faults s.tables).1 = .ok ()) :
      SettleReply settlement s result (s.ran (settleRebalanceAttempt settlement) faults)
  | unheard (faults : List (Option Fault)) (e : String) :
      SettleReply settlement s (.error e) (s.ran (settleRebalanceAttempt settlement) faults)
  | gone (e : String) : SettleReply settlement s (.error e) s

theorem Receipt.inserted {intent : RebalanceAttemptIntent} {s : Host}
    (h : (call (insertRebalanceAttempt intent) [] s.tables).1 = .ok ()) :
    Receipt intent s (.replied (.ok ())) (s.ran (insertRebalanceAttempt intent) []) :=
  .replied [] (iff_of_true rfl h)

theorem SettleReply.settled {settlement : RebalanceSettle} {s : Host}
    (h : (call (settleRebalanceAttempt settlement) [] s.tables).1 = .ok ()) :
    SettleReply settlement s (.ok ()) (s.ran (settleRebalanceAttempt settlement) []) :=
  .replied [] (iff_of_true rfl h)

/-- The payments of a cycle are put down when their requests have their ids. -/
def answers : (op : Op) → Host → Reply op → Host → Prop
  | .insertIntent intent paid, s, r, t =>
    Receipt intent (s.pay intent.requestId paid.toList) r t
  | .settle settlement, s, r, t => SettleReply settlement s r t
  | .execute requestId _ _ _, s, _, t => ∃ hashes, t = s.pay requestId hashes
  | .unresolved, s, r, t => t = s ∧ ∀ rows, r = .ok rows → rows = s.tables.unresolved
  | .reservedSats since, s, r, t =>
      t = s ∧ ∀ sats, r = .ok sats → sats = s.tables.reservedSats since
  | .listsendpays hash, s, r, t => t = s ∧ r = s.sendpays hash
  | .clock, s, _, t => t = s
  | .getFunds, s, _, t => t = s
  | .getPeerChannels, s, _, t => t = s
  | .engineCycle, s, _, t => t = s

/-- A pending insert runs, and payments move on at the node. -/
inductive Drifts (s : Host) : Host → Prop where
  | lands {intent : RebalanceAttemptIntent} (h : intent ∈ s.pending)
      (faults : List (Option Fault)) :
      Drifts s { s.ran (insertRebalanceAttempt intent) faults with
        pending := s.pending.erase intent }
  | moves (sendpays : String → Except String Json) : Drifts s { s with sendpays := sendpays }

end Host

section Process

variable [SerdeJson] [DebugText]

inductive Phase where
  | down
  | idle (o : OwnerState)
  | manual (p : Owner (Told ManualOutcome))
  | cycle (p : Owner (Told CycleSummary))
  | reconciling (p : Owner (Told ReconcileSummary))

structure Node where
  host : Host
  phase : Phase

/-- A settlement of the reconciliation that the store took. -/
structure Settlement where
  before : Host
  settle : RebalanceSettle
  after : Host

def Phase.told {α : Type} : Told α → Phase
  | (_, .panic) => .down
  | (o, _) => .idle o

def settlements : (op : Op) → Host → Reply op → Host → List Settlement
  | .settle settlement, s, .ok (), t => [⟨s, settlement, t⟩]
  | _, _, _, _ => []

inductive Node.Step (config : OwnerConfig) : Node → List Settlement → Node → Prop where
  | drift {s t : Host} (phase : Phase) (h : Drifts s t) : Step config ⟨s, phase⟩ [] ⟨t, phase⟩
  | start (s : Host) : Step config ⟨s, .down⟩ [] ⟨s, .idle .fresh⟩
  | manual (s : Host) (o : OwnerState) (params : ManualRebalanceParams) :
      Step config ⟨s, .idle o⟩ [] ⟨s, .manual (RebalanceOwner.manual config o params)⟩
  | manualAnswer {op : Op} {next : Reply op → Owner (Told ManualOutcome)} {r : Reply op}
      {s t : Host} (h : answers op s r t) :
      Step config ⟨s, .manual (.call op next)⟩ [] ⟨t, .manual (next r)⟩
  | manualTold (s : Host) (told : Told ManualOutcome) :
      Step config ⟨s, .manual (.ret told)⟩ [] ⟨s, .told told⟩
  | cycle (s : Host) (o : OwnerState) :
      Step config ⟨s, .idle o⟩ [] ⟨s, .cycle (runCycle config o)⟩
  | cycleAnswer {op : Op} {next : Reply op → Owner (Told CycleSummary)} {r : Reply op}
      {s t : Host} (h : answers op s r t) :
      Step config ⟨s, .cycle (.call op next)⟩ [] ⟨t, .cycle (next r)⟩
  | cycleTold (s : Host) (told : Told CycleSummary) :
      Step config ⟨s, .cycle (.ret told)⟩ [] ⟨s, .told told⟩
  | reconcile (s : Host) (o : OwnerState) :
      Step config ⟨s, .idle o⟩ [] ⟨s, .reconciling (reconcileOnStart o)⟩
  | reconcileAnswer {op : Op} {next : Reply op → Owner (Told ReconcileSummary)} {r : Reply op}
      {s t : Host} (h : answers op s r t) :
      Step config ⟨s, .reconciling (.call op next)⟩ (settlements op s r t)
        ⟨t, .reconciling (next r)⟩
  | reconcileTold (s : Host) (told : Told ReconcileSummary) :
      Step config ⟨s, .reconciling (.ret told)⟩ [] ⟨s, .told told⟩
  | crash (s : Host) (phase : Phase) : Step config ⟨s, phase⟩ [] ⟨s.crashed, .down⟩

inductive Node.Run (config : OwnerConfig) : Node → List Settlement → Node → Prop where
  | here (n : Node) : Run config n [] n
  | step {n m k : Node} {log rest : List Settlement} (h : Step config n log m)
      (hrest : Run config m rest k) : Run config n (log ++ rest) k

theorem Node.Run.quiet {config : OwnerConfig} {n m k : Node} {log : List Settlement}
    (h : Node.Step config n [] m) (hrest : Node.Run config m log k) : Node.Run config n log k :=
  .step h hrest

structure Node.Initial (n : Node) : Prop where
  tables : n.host.tables = .empty
  phase : n.phase = .down

end Process

section Law

def Ended (t : RebalanceTables) (requestId : String) (outcome : AttemptOutcome)
    (status : ReservationStatus) : Prop :=
  (∃ r ∈ t.attempts.rows, r.requestId = requestId ∧ r.outcome = some outcome) ∧
    ∃ v ∈ t.reservations, v.attemptRequestId = requestId ∧ v.status = status

def ReportsComplete (reply : Except String Json) : Prop :=
  ∃ response, reply = .ok response ∧ Completed response

def ReportsFailed (reply : Except String Json) : Prop :=
  ∃ response, reply = .ok response ∧ AllFailed response

def Undecided (reply : Except String Json) : Prop := ¬ ReportsComplete reply ∧ ¬ ReportsFailed reply

namespace Settlement

variable (e : Settlement)

/-- The attempt ends as the node reports its payment, and is held only without a decision there. -/
structure Resolved : Prop where
  complete : ∀ hash, e.before.paid e.settle.requestId = some hash →
    ReportsComplete (e.before.sendpays hash) →
      Ended e.after.tables e.settle.requestId .success .settled
  failed : ∀ hash, e.before.paid e.settle.requestId = some hash →
    ReportsFailed (e.before.sendpays hash) →
      Ended e.after.tables e.settle.requestId .rejected .released
  held : Ended e.after.tables e.settle.requestId .outcomeUnknown .quarantined →
    ∃ hash, e.before.paid e.settle.requestId = some hash ∧ Undecided (e.before.sendpays hash)

/-- A payment went out for the attempt, and the node has not decided it. -/
def Waiting : Prop :=
  ∃ hash, e.before.paid e.settle.requestId = some hash ∧ Undecided (e.before.sendpays hash)

end Settlement

/-- An attempt that has no end has no hash either, and its reservation is active. -/
structure Paired (r : AttemptRecord) (v : ReservationRecord) : Prop where
  id : v.attemptRequestId = r.requestId
  hash : r.outcome = none → r.paymentHash = none
  active : r.outcome = none → v.status = .active

def Sound (t : RebalanceTables) : Prop := List.Forall₂ Paired t.attempts.rows t.reservations

variable {t u : RebalanceTables} {intent : RebalanceAttemptIntent} {settlement : RebalanceSettle}
  {r : AttemptRecord}

theorem sound_empty : Sound .empty := .nil

theorem Sound.inserted (h : Sound t) (hu : t.inserted intent = some u) : Sound u := by
  obtain ⟨-, hattempts, hreservations⟩ := inserted_eq_some.mp hu
  unfold Sound
  rw [hattempts, hreservations]
  exact List.rel_append h (.cons ⟨rfl, fun _ => rfl, fun _ => rfl⟩ .nil)

theorem Sound.settled (h : Sound t) (hu : t.settled settlement = some u) : Sound u := by
  obtain ⟨-, hattempts, hreservations⟩ := settled_eq_some.mp hu
  unfold Sound
  rw [hattempts, hreservations, List.forall₂_map_left_iff, List.forall₂_map_right_iff]
  refine h.imp fun r v hpaired => ?_
  constructor
  · have hattempt : (if settlement.selects r then settlement.attempt r else r).requestId =
        r.requestId := by split <;> rfl
    have hreservation :
        (if settlement.holds v then settlement.reservation v else v).attemptRequestId =
        v.attemptRequestId := by split <;> rfl
    rw [hattempt, hreservation]
    exact hpaired.id
  · by_cases hselects : settlement.selects r = true
    · rw [if_pos hselects]
      nofun
    · rw [if_neg hselects]
      exact hpaired.hash
  · by_cases hselects : settlement.selects r = true
    · rw [if_pos hselects]
      nofun
    · rw [if_neg hselects]
      intro hopen
      -- An open attempt of another request, so its reservation is another one too.
      have hother : settlement.holds v ≠ true := by
        intro hholds
        simp only [RebalanceSettle.holds, Bool.and_eq_true, decide_eq_true_eq] at hholds
        apply hselects
        simp [RebalanceSettle.selects, hopen, ← hpaired.id, hholds.1]
      rw [if_neg hother]
      exact hpaired.active hopen

theorem Sound.partner (h : Sound t) (hr : r ∈ t.attempts.rows) :
    ∃ v ∈ t.reservations, Paired r v := by
  obtain ⟨i, hi, rfl⟩ := List.mem_iff_getElem.mp hr
  have hlength := List.Forall₂.length_eq h
  exact ⟨t.reservations[i], List.getElem_mem _, List.Forall₂.get h hi (by omega)⟩

theorem Sound.hashless (h : Sound t) (hr : r ∈ t.unresolved) : r.paymentHash = none := by
  obtain ⟨hmem, hopen⟩ := mem_unresolved.mp hr
  obtain ⟨v, -, hpaired⟩ := h.partner hmem
  exact hpaired.hash hopen

theorem outcome_of_settled (hu : t.settled settlement = some u) {r : AttemptRecord}
    (hr : r ∈ u.attempts.rows) (hid : r.requestId = settlement.requestId) :
    r.outcome = some settlement.outcome := by
  obtain ⟨⟨q, hq, hselects⟩, hattempts, -⟩ := settled_eq_some.mp hu
  have hmem : settlement.attempt q ∈ u.attempts.rows := by
    rw [hattempts]
    exact List.mem_map.mpr ⟨q, hq, if_pos hselects⟩
  have hqid : q.requestId = settlement.requestId := by
    simp only [RebalanceSettle.selects, Bool.and_eq_true, decide_eq_true_eq] at hselects
    exact hselects.1
  have hsame : r = settlement.attempt q :=
    List.inj_on_of_nodup_map u.attempts.nodup hr hmem (hid.trans hqid.symm)
  rw [hsame]
  rfl

theorem Sound.ended (h : Sound t) (hu : t.settled settlement = some u) :
    Ended u settlement.requestId settlement.outcome settlement.reservationStatus := by
  obtain ⟨⟨r, hr, hselects⟩, hattempts, hreservations⟩ := settled_eq_some.mp hu
  obtain ⟨v, hv, hpaired⟩ := h.partner hr
  have hopen : r.requestId = settlement.requestId ∧ r.outcome = none := by
    simpa [RebalanceSettle.selects] using hselects
  have hholds : settlement.holds v = true := by
    simp [RebalanceSettle.holds, hpaired.id, hopen.1, hpaired.active hopen.2]
  constructor
  · refine ⟨settlement.attempt r, ?_, hopen.1, rfl⟩
    rw [hattempts]
    exact List.mem_map.mpr ⟨r, hr, if_pos hselects⟩
  · refine ⟨settlement.reservation v, ?_, hpaired.id.trans hopen.1, rfl⟩
    rw [hreservations]
    exact List.mem_map.mpr ⟨v, hv, if_pos hholds⟩

/-- A settlement that holds is right exactly for a payment that the node has not decided. -/
theorem resolved_iff_waiting (e : Settlement) (hsound : Sound e.before.tables)
    (hsettled : e.before.tables.settled e.settle = some e.after.tables)
    (houtcome : e.settle.outcome = .outcomeUnknown)
    (hstatus : e.settle.reservationStatus = .quarantined) : e.Resolved ↔ e.Waiting := by
  have hended := hsound.ended hsettled
  rw [houtcome, hstatus] at hended
  constructor
  · exact fun h => h.held hended
  · rintro ⟨hash, hpaid, hundecided⟩
    have honly : ∀ other, e.before.paid e.settle.requestId = some other → other = hash := by
      intro other hother
      exact Option.some.inj (hother.symm.trans hpaid)
    constructor
    · intro other hother hcomplete
      rw [honly other hother] at hcomplete
      exact absurd hcomplete hundecided.1
    · intro other hother hfailed
      rw [honly other hother] at hfailed
      exact absurd hfailed hundecided.2
    · exact fun _ => ⟨hash, hpaid, hundecided⟩

end Law

section Steps

variable {s t : Host} {op : Op} {r : Reply op} {intent : RebalanceAttemptIntent}
  {settlement : RebalanceSettle} {faults : List (Option Fault)}

theorem Sound.ranInsert (h : Sound s.tables) :
    Sound (s.ran (insertRebalanceAttempt intent) faults).tables := by
  have hcall := call_atomic faults
    (insertRebalanceAttempt_atomic (t := s.tables) intent rfl rfl)
  rcases hcall with ⟨a, -, hinserted⟩ | ⟨-, hsame⟩
  · exact h.inserted hinserted
  · rw [Host.ran, hsame]
    exact h

theorem Sound.ranSettle (h : Sound s.tables) :
    Sound (s.ran (settleRebalanceAttempt settlement) faults).tables := by
  have hcall := call_atomic faults
    (settleRebalanceAttempt_atomic (t := s.tables) settlement rfl rfl)
  rcases hcall with ⟨a, -, hsettled⟩ | ⟨-, hsame⟩
  · exact h.settled hsettled
  · rw [Host.ran, hsame]
    exact h

theorem answers_sound (h : answers op s r t) (hs : Sound s.tables) : Sound t.tables := by
  cases op with
  | insertIntent intent paid =>
    cases h with
    | refused reason => exact hs
    | replied faults _ => exact Sound.ranInsert (s := s.pay intent.requestId paid.toList) hs
    | unknown => exact hs
  | settle settlement =>
    cases h with
    | replied faults _ => exact hs.ranSettle
    | unheard faults e => exact hs.ranSettle
    | gone e => exact hs
  | execute requestId candidate rebalanceId kw =>
    obtain ⟨hashes, rfl⟩ := h
    exact hs
  | unresolved => exact h.1 ▸ hs
  | reservedSats since => exact h.1 ▸ hs
  | listsendpays hash => exact h.1 ▸ hs
  | clock => exact h ▸ hs
  | getFunds => exact h ▸ hs
  | getPeerChannels => exact h ▸ hs
  | engineCycle => exact h ▸ hs

theorem drifts_sound (h : Drifts s t) (hs : Sound s.tables) : Sound t.tables := by
  cases h with
  | lands _ faults => exact hs.ranInsert
  | moves _ => exact hs

theorem settled_of_answer (h : answers (.settle settlement) s (.ok ()) t) :
    s.tables.settled settlement = some t.tables := by
  cases h with
  | replied faults hreply =>
    have hcall := call_atomic faults
      (settleRebalanceAttempt_atomic (t := s.tables) settlement rfl rfl)
    rcases hcall with ⟨a, -, hsettled⟩ | ⟨hfailed, -⟩
    · exact hsettled
    · exact absurd (hreply.mp rfl) (hfailed ())

/-- A settlement that is not the holding of an unknown outcome. -/
def Decides (op : Op) : Prop := ∃ settlement, op = .settle settlement ∧
  ¬ (settlement.outcome = .outcomeUnknown ∧ settlement.reservationStatus = .quarantined)

variable [DebugText] {o : OwnerState} {p : Owner (Told ReconcileSummary)}

/-- Attempts without a hash are held, one after another, without a question to the node. -/
theorem avoids_reconcileAttempts (attempts : List AttemptRecord) (summary : ReconcileSummary)
    (h : ∀ a ∈ attempts, a.paymentHash = none) :
    (reconcileAttempts o attempts summary).Avoids Decides := by
  induction attempts generalizing summary with
  | nil => trivial
  | cons attempt attempts ih =>
    have hlook : lookUp attempt = .ret (.ok noHash) := by
      unfold lookUp
      rw [h attempt List.mem_cons_self]
      rfl
    have hclock : ¬ Decides .clock := by
      rintro ⟨settlement, hop, -⟩
      cases hop
    refine ⟨hclock, fun now => ?_⟩
    change (lookUp attempt >>= _).Avoids Decides
    rw [hlook]
    constructor
    · rintro ⟨settlement, hop, hdecides⟩
      cases hop
      exact hdecides ⟨rfl, rfl⟩
    · intro settled
      cases settled with
      | error e => trivial
      | ok _ => exact ih _ fun a ha => h a (List.mem_cons_of_mem _ ha)

def Holding (p : Owner (Told ReconcileSummary)) : Prop :=
  (∃ o, p = reconcileOnStart o) ∨ p.Avoids Decides

theorem Holding.answer {next : Reply op → Owner (Told ReconcileSummary)}
    (hp : Holding (.call op next)) (hs : Sound s.tables) (h : answers op s r t) :
    Holding (next r) ∧ ∀ e ∈ settlements op s r t, e.Resolved ↔ e.Waiting := by
  rcases hp with ⟨o, hstart⟩ | havoids
  · change Prog.call op next = Prog.call Op.unresolved _ at hstart
    cases hstart
    refine ⟨.inr ?_, by simp [settlements]⟩
    cases r with
    | error e => trivial
    | ok attempts =>
      apply avoids_reconcileAttempts
      intro a ha
      rw [h.2 attempts rfl] at ha
      exact hs.hashless ha
  · refine ⟨.inr (havoids.2 r), fun e he => ?_⟩
    cases op with
    | settle settlement =>
      cases r with
      | error _ => cases he
      | ok _ =>
        obtain rfl := List.mem_singleton.mp he
        have hholds : settlement.outcome = .outcomeUnknown ∧
            settlement.reservationStatus = .quarantined := by
          by_contra hdecides
          exact havoids.1 ⟨settlement, rfl, hdecides⟩
        exact resolved_iff_waiting _ hs (settled_of_answer h) hholds.1 hholds.2
    | _ => cases he

end Steps

section Runs

theorem told_not_reconciling {α : Type} (told : Told α) (p : Owner (Told ReconcileSummary)) :
    Phase.told told ≠ .reconciling p := by
  obtain ⟨o, result⟩ := told
  cases result <;> nofun

variable [SerdeJson] [DebugText] {config : OwnerConfig} {n m : Node} {log : List Settlement}

structure Node.Invariant (n : Node) : Prop where
  sound : Sound n.host.tables
  holding : ∀ p, n.phase = .reconciling p → Holding p

omit [SerdeJson] in
theorem Node.Initial.invariant (h : n.Initial) : n.Invariant := by
  constructor
  · rw [h.tables]
    exact sound_empty
  · rw [h.phase]
    nofun

theorem step_invariant (h : Node.Step config n log m) (hn : n.Invariant) :
    m.Invariant ∧ ∀ e ∈ log, e.Resolved ↔ e.Waiting := by
  have hnone : ∀ e ∈ ([] : List Settlement), e.Resolved ↔ e.Waiting := by simp
  obtain ⟨hsound, hholding⟩ := hn
  cases h with
  | drift phase h => exact ⟨⟨drifts_sound h hsound, hholding⟩, hnone⟩
  | start s => exact ⟨⟨hsound, nofun⟩, hnone⟩
  | manual s o params => exact ⟨⟨hsound, nofun⟩, hnone⟩
  | manualAnswer h => exact ⟨⟨answers_sound h hsound, nofun⟩, hnone⟩
  | manualTold s told =>
    exact ⟨⟨hsound, fun p hp => absurd hp (told_not_reconciling told p)⟩, hnone⟩
  | cycle s o => exact ⟨⟨hsound, nofun⟩, hnone⟩
  | cycleAnswer h => exact ⟨⟨answers_sound h hsound, nofun⟩, hnone⟩
  | cycleTold s told =>
    exact ⟨⟨hsound, fun p hp => absurd hp (told_not_reconciling told p)⟩, hnone⟩
  | reconcile s o =>
    refine ⟨⟨hsound, fun p hp => ?_⟩, hnone⟩
    cases hp
    exact .inl ⟨o, rfl⟩
  | reconcileAnswer h =>
    obtain ⟨hnext, hlog⟩ := (hholding _ rfl).answer hsound h
    refine ⟨⟨answers_sound h hsound, fun p hp => ?_⟩, hlog⟩
    cases hp
    exact hnext
  | reconcileTold s told =>
    exact ⟨⟨hsound, fun p hp => absurd hp (told_not_reconciling told p)⟩, hnone⟩
  | crash s phase => exact ⟨⟨hsound, nofun⟩, hnone⟩

theorem run_resolved_iff (h : Node.Run config n log m) (hn : n.Invariant) :
    ∀ e ∈ log, e.Resolved ↔ e.Waiting := by
  induction h with
  | here n => simp
  | step hstep _ ih =>
    obtain ⟨hm, hlog⟩ := step_invariant hstep hn
    intro e he
    rcases List.mem_append.mp he with he | he
    · exact hlog e he
    · exact ih hm e he

/-- In every run with crashes at any step, a reconciliation ends an attempt as it should exactly
when the node has a payment for it that is not decided. -/
theorem reconciliation_resolves_iff (h : Node.Run config n log m) (hn : n.Initial) :
    ∀ e ∈ log, e.Resolved ↔ e.Waiting := run_resolved_iff h hn.invariant

end Runs

section Crash

@[reducible] def silentJson : SerdeJson := ⟨fun _ => none, fun _ => ""⟩

@[reducible] def silentDebug : DebugText := ⟨fun _ => ""⟩

def anyConfig : OwnerConfig :=
  { engineAssembled := true
    dailyBudgetSats := 0
    budgetWindowHours := 24
    rebalanceMaxAmount := 0
    pairCooldownSeconds := 0 }

def completeReport : Json := .obj [("payments", .arr [.obj [("status", .str "complete")]])]

def emptyHost : Host := ⟨.empty, [], [], fun _ => .ok completeReport⟩

def paidExecution : CycleExecution :=
  { result := { RebalanceEngine.failedResult "" 100 with
      success := true
      error := none
      paymentHash := some "ab" }
    paid := some "ab" }

def paidRequest : String := s!"cycle-{(100 : ℤ)}-{(0 : ℕ)}"

def paidIntent : RebalanceAttemptIntent :=
  @cycleIntent silentJson paidExecution.result 100 paidRequest

/-- The cycle has paid and written its intent, but not its end. -/
def recordedHost : Host :=
  (emptyHost.pay paidRequest ["ab"]).ran (insertRebalanceAttempt paidIntent) []

def restartedHost : Host := recordedHost.crashed

def heldSettle : RebalanceSettle := noHash.settle paidIntent.record 200

def heldHost : Host := restartedHost.ran (settleRebalanceAttempt heldSettle) []

def paidCycle : CycleResult := ⟨[paidExecution], 0⟩

theorem heldSettle_answered : answers (.settle heldSettle) restartedHost (.ok ()) heldHost :=
  SettleReply.settled (by decide)

/-- A cycle pays and writes its intent, the process crashes, and the next one reconciles. -/
theorem crash_run : ∃ m, @Node.Run silentJson silentDebug anyConfig ⟨emptyHost, .down⟩
    [⟨restartedHost, heldSettle, heldHost⟩] m := by
  let json := silentJson
  let debug := silentDebug
  have hpaid : answers .engineCycle emptyHost paidCycle emptyHost := rfl
  have hclock : ∀ (s : Host) (now : ℤ), answers .clock s now s := fun _ _ => rfl
  have hintent : answers (.insertIntent paidIntent (some "ab")) emptyHost (.replied (.ok ()))
      recordedHost := Receipt.inserted (by decide)
  have hrows : answers .unresolved restartedHost (.ok [paidIntent.record]) restartedHost := by
    refine ⟨rfl, fun rows hrows => ?_⟩
    cases hrows
    decide
  apply Exists.intro
  apply Node.Run.quiet (.start _)
  apply Node.Run.quiet (.cycle _ _)
  apply Node.Run.quiet (.cycleAnswer hpaid)
  apply Node.Run.quiet (.cycleAnswer (hclock _ 100))
  apply Node.Run.quiet (.cycleAnswer hintent)
  apply Node.Run.quiet (.crash _ _)
  apply Node.Run.quiet (.start _)
  apply Node.Run.quiet (.reconcile _ _)
  apply Node.Run.quiet (.reconcileAnswer hrows)
  apply Node.Run.quiet (.reconcileAnswer (hclock _ 200))
  exact .step (.reconcileAnswer heldSettle_answered) (.here _)

theorem emptyHost_complete (hash : String) : ReportsComplete (restartedHost.sendpays hash) :=
  ⟨completeReport, rfl, by decide⟩

/-- The payment of the attempt is complete at the node, and the reconciliation does not see it. -/
theorem crash_forgets_payment : ∃ e : Settlement,
    (∃ m, @Node.Run silentJson silentDebug anyConfig ⟨emptyHost, .down⟩ [e] m) ∧
      e.before.paid e.settle.requestId = some "ab" ∧ ReportsComplete (e.before.sendpays "ab") ∧
      ¬ e.Resolved := by
  have hpaid : restartedHost.paid heldSettle.requestId = some "ab" := by decide
  refine ⟨_, crash_run, hpaid, emptyHost_complete _, fun h => ?_⟩
  obtain ⟨⟨r, hr, hid, hsuccess⟩, -⟩ := h.complete "ab" hpaid (emptyHost_complete _)
  have hunknown := outcome_of_settled (settled_of_answer heldSettle_answered) hr hid
  rw [hsuccess] at hunknown
  cases hunknown

theorem crash_unresolved : ¬ Settlement.Resolved ⟨restartedHost, heldSettle, heldHost⟩ := by
  obtain ⟨m, hrun⟩ := crash_run
  intro h
  obtain ⟨hash, -, hundecided⟩ := (@reconciliation_resolves_iff silentJson silentDebug anyConfig
    ⟨emptyHost, .down⟩ m _ hrun ⟨rfl, rfl⟩ _ (List.mem_singleton_self _)).mp h
  exact hundecided.1 (emptyHost_complete hash)

end Crash

end RebalanceOwner
