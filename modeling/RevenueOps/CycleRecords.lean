import RevenueOps.RebalanceRestarts

/-! What a cycle of the owner records. The store takes the commands of the thread in their order,
so the intent of an execution is decided before its settlement runs. The settlement of an intent
that was turned away finds no open attempt, and that error counts like any other. -/
namespace RebalanceOwner

open FallibleState InteractiveProgram JsonValue KeyedTable RebalanceExecution RebalanceRail
open SqlTransaction

section Queue

/-- An admitted insert runs even when nobody hears of it, unless the store is gone. -/
inductive IntentReply (intent : RebalanceAttemptIntent) (s : Host) : IntentReceipt → Host → Prop
    where
  | refused (reason : StoreAdmissionRefused) : IntentReply intent s (.refused reason) s
  | replied (faults : List (Option Fault)) {result : Except String Unit}
      (h : result = .ok () ↔ (call (insertRebalanceAttempt intent) faults s.tables).1 = .ok ()) :
      IntentReply intent s (.replied result) (s.ran (insertRebalanceAttempt intent) faults)
  | unheard (faults : List (Option Fault)) :
      IntentReply intent s .outcomeUnknown (s.ran (insertRebalanceAttempt intent) faults)
  | lost : IntentReply intent s .outcomeUnknown s

theorem IntentReply.inserted {intent : RebalanceAttemptIntent} {s : Host}
    (h : (call (insertRebalanceAttempt intent) [] s.tables).1 = .ok ()) :
    IntentReply intent s (.replied (.ok ())) (s.ran (insertRebalanceAttempt intent) []) :=
  .replied [] (iff_of_true rfl h)

def queueAnswers : (op : Op) → Host → Reply op → Host → Prop
  | .insertIntent intent paid, s, r, t =>
    IntentReply intent (s.pay intent.requestId paid.toList) r t
  | op, s, r, t => answers op s r t

def queueWorld : World Op Reply Host := ⟨queueAnswers, fun _ _ => False⟩

abbrev Moments := List (World.Moment Op Reply Host)

theorem queue_ret {α : Type} {a b : α} {s t : Host} {log : Moments}
    (h : queueWorld.Run (.ret a) s log (.ret b) t) : log = [] ∧ a = b ∧ s = t := by
  generalize hp : (Prog.ret a : Owner α) = p at h
  generalize hq : (Prog.ret b : Owner α) = q at h
  induction h with
  | here =>
    cases hp
    cases hq
    exact ⟨rfl, rfl, rfl⟩
  | drift h => exact h.elim
  | answer => cases hp

theorem queue_call {α : Type} {op : Op} {next : Reply op → Owner α} {b : α} {s t : Host}
    {log : Moments} (h : queueWorld.Run (.call op next) s log (.ret b) t) :
    ∃ r u rest, log = ⟨s, op, r⟩ :: rest ∧ queueAnswers op s r u ∧
      queueWorld.Run (next r) u rest (.ret b) t := by
  generalize hp : Prog.call op next = p at h
  generalize hq : (Prog.ret b : Owner α) = q at h
  cases h with
  | here =>
    subst hq
    cases hp
  | drift h => exact h.elim
  | answer h hrest =>
    cases hp
    subst hq
    exact ⟨_, _, _, rfl, h, hrest⟩

end Queue

section Recordings

structure Recording where
  intent : RebalanceAttemptIntent
  settle : RebalanceSettle
  before : RebalanceTables
  between : RebalanceTables
  settled : Except String Unit
  after : RebalanceTables

def tablesAt : Moments → Host → RebalanceTables
  | [], t => t.tables
  | m :: _, _ => m.state.tables

def recordings : Moments → Host → List Recording
  | ⟨s, ⟨.insertIntent intent _, _⟩⟩ :: ⟨u, ⟨.settle settle, settled⟩⟩ :: log, t =>
    ⟨intent, settle, s.tables, u.tables, settled, tablesAt log t⟩ :: recordings log t
  | _ :: log, t => recordings log t
  | [], _ => []

def executionsOf : Moments → List CycleExecution
  | ⟨_, ⟨.engineCycle, cycle⟩⟩ :: _ => cycle.executions
  | _ :: log => executionsOf log
  | [] => []

/-- The attempt row is there now and its request was not before. -/
def Recording.New (r : Recording) : Prop :=
  r.intent.requestId ∉ r.before.attempts.rows.map AttemptRecord.requestId ∧
    r.intent.record ∈ r.between.attempts.rows

def Recording.Accepted (r : Recording) : Prop := r.before.inserted r.intent = some r.between

def Recording.IsOf [SerdeJson] (r : Recording) (e : CycleExecution × ℕ) : Prop :=
  ∃ now : ℤ, r.intent = cycleIntent e.1.result now s!"cycle-{now}-{e.2}" ∧
    r.settle = settlementFor (classifyExecution e.1.result) r.intent.requestId now

/-- Recording logs what it loses and goes on: only an inserted attempt without its end suspends,
nothing is done to the attempts of others, and every execution has its turn once. -/
structure LogsAndContinues [SerdeJson] (o o' : OwnerState) (executions : List CycleExecution)
    (recs : List Recording) (t : RebalanceTables) : Prop where
  suspended : o.suspended = false → o'.suspended = true →
    ∃ r ∈ recs, r.New ∧ ∃ e, r.settled = .error e
  kept : ∀ r ∈ recs, ¬ r.New → ∀ a ∈ r.before.attempts.rows, a ∈ r.after.attempts.rows
  offered : o.suspended = false → o'.suspended = false →
    List.Forall₂ (fun e r => Recording.IsOf r e) executions.zipIdx recs
  ended : ∀ r ∈ recs, r.New → r.settled = .ok () →
    t.attempts.find? r.intent.requestId = some (r.settle.attempt r.intent.record)

end Recordings

section Turns

structure Recording.Lawful (r : Recording) : Prop where
  insert : r.Accepted ∨ r.between = r.before
  settle : r.settled = .ok () → r.between.settled r.settle = some r.after
  atomic : r.between.settled r.settle = some r.after ∨ r.after = r.between
  id : r.settle.requestId = r.intent.requestId

def KeepsEnded (t u : RebalanceTables) : Prop :=
  ∀ a ∈ t.attempts.rows, a.outcome ≠ none → a ∈ u.attempts.rows

variable {t u v : RebalanceTables} {r : Recording} {intent : RebalanceAttemptIntent}
  {settlement : RebalanceSettle} {a : AttemptRecord}

theorem KeepsEnded.refl (t : RebalanceTables) : KeepsEnded t t := fun _ h _ => h

theorem KeepsEnded.trans (h : KeepsEnded t u) (k : KeepsEnded u v) : KeepsEnded t v :=
  fun a ha hdone => k a (h a ha hdone) hdone

theorem keepsEnded_inserted (h : t.inserted intent = some u) : KeepsEnded t u := by
  intro a ha _
  rw [(inserted_eq_some.mp h).2.1]
  exact List.mem_append_left _ ha

theorem keepsEnded_settled (h : t.settled settlement = some u) : KeepsEnded t u := by
  intro a ha hdone
  rw [(settled_eq_some.mp h).2.1]
  refine List.mem_map.mpr ⟨a, ha, if_neg ?_⟩
  simp [RebalanceSettle.selects, hdone]

theorem new_of_accepted (h : r.Accepted) : r.New := by
  obtain ⟨hnew, hrows, -⟩ := inserted_eq_some.mp h
  refine ⟨hnew, ?_⟩
  rw [hrows]
  exact List.mem_append_right _ (List.mem_singleton_self _)

theorem Recording.Lawful.accepted_of_new (h : r.Lawful) (hnew : r.New) : r.Accepted := by
  refine h.insert.resolve_right ?_
  intro hsame
  rw [Recording.New, hsame] at hnew
  exact hnew.1 (List.mem_map_of_mem hnew.2)

/-- A settlement of what was not inserted ends an attempt that was there before. -/
theorem Recording.Lawful.changes (h : r.Lawful) (hnew : ¬ r.New) (hok : r.settled = .ok ()) :
    ∃ a ∈ r.before.attempts.rows, a ∉ r.after.attempts.rows := by
  have hsame := h.insert.resolve_left (fun haccepted => hnew (new_of_accepted haccepted))
  have hsettled := h.settle hok
  rw [hsame] at hsettled
  obtain ⟨⟨a, ha, hselects⟩, -⟩ := settled_eq_some.mp hsettled
  simp only [RebalanceSettle.selects, Bool.and_eq_true, decide_eq_true_eq,
    Option.isNone_iff_eq_none] at hselects
  refine ⟨a, ha, fun hleft => ?_⟩
  have hdone := outcome_of_settled hsettled hleft hselects.1
  rw [hselects.2] at hdone
  cases hdone

theorem Recording.Lawful.ends (h : r.Lawful) (hnew : r.New) (hok : r.settled = .ok ()) :
    r.settle.attempt r.intent.record ∈ r.after.attempts.rows := by
  rw [(settled_eq_some.mp (h.settle hok)).2.1]
  refine List.mem_map.mpr ⟨r.intent.record, hnew.2, if_pos ?_⟩
  simp [RebalanceSettle.selects, RebalanceAttemptIntent.record, AttemptRecord.requestId, h.id]

theorem Recording.Lawful.keepsEnded (h : r.Lawful) : KeepsEnded r.before r.after := by
  have hinsert : KeepsEnded r.before r.between := by
    rcases h.insert with haccepted | hsame
    · exact keepsEnded_inserted haccepted
    · rw [hsame]
      exact .refl _
  have hsettle : KeepsEnded r.between r.after := by
    rcases h.atomic with hsettled | hsame
    · exact keepsEnded_settled hsettled
    · rw [hsame]
      exact .refl _
  exact hinsert.trans hsettle

variable [SerdeJson]

/-- The turns of the executions from one place on: up to the end, or to a settlement that fails. -/
inductive Turns (o : OwnerState) : List CycleExecution → ℕ → RebalanceTables → List Recording →
    OwnerState → RebalanceTables → Prop where
  | done (i : ℕ) (t : RebalanceTables) : Turns o [] i t [] o t
  | recorded {e : CycleExecution} {es : List CycleExecution} {i : ℕ} {r : Recording}
      {rs : List Recording} {o' : OwnerState} {u : RebalanceTables} (hr : r.Lawful)
      (hof : r.IsOf (e, i)) (hok : r.settled = .ok ()) (rest : Turns o es (i + 1) r.after rs o' u) :
      Turns o (e :: es) i r.before (r :: rs) o' u
  | suspended {e : CycleExecution} {es : List CycleExecution} {i : ℕ} {r : Recording}
      {error : String} (hr : r.Lawful) (hof : r.IsOf (e, i)) (herror : r.settled = .error error) :
      Turns o (e :: es) i r.before [r] { o with suspended := true } r.after

variable {o o' : OwnerState} {executions : List CycleExecution} {i : ℕ} {recs : List Recording}

theorem Turns.lawful (h : Turns o executions i t recs o' u) : ∀ r ∈ recs, r.Lawful := by
  induction h with
  | done => simp
  | recorded hr _ _ _ ih => exact List.forall_mem_cons.mpr ⟨hr, ih⟩
  | suspended hr => simpa using hr

theorem Turns.offered (h : Turns o executions i t recs o' u) (ho : o'.suspended = false) :
    List.Forall₂ (fun e r => Recording.IsOf r e) (executions.zipIdx i) recs := by
  induction h with
  | done => exact .nil
  | recorded _ hof _ _ ih => exact .cons hof (ih ho)
  | suspended => cases ho

/-- Suspended by the last turn, whose settlement is the only one that failed. -/
theorem Turns.failed (h : Turns o executions i t recs o' u) (ho : o.suspended = false) :
    (o'.suspended = true → ∃ r ∈ recs, ∃ e, r.settled = .error e) ∧
      ∀ r ∈ recs, ∀ e, r.settled = .error e →
        o'.suspended = true ∧ ∀ q ∈ recs, (∃ e, q.settled = .error e) → q = r := by
  induction h with
  | done => simp [ho]
  | @recorded _ _ _ r rs _ _ _ _ hok _ ih =>
    obtain ⟨hexists, hunique⟩ := ih
    constructor
    · intro hsuspended
      obtain ⟨q, hq, he⟩ := hexists hsuspended
      exact ⟨q, List.mem_cons_of_mem _ hq, he⟩
    · intro q hq e he
      rcases List.mem_cons.mp hq with rfl | hq
      · rw [hok] at he
        cases he
      · obtain ⟨hsuspended, honly⟩ := hunique q hq e he
        refine ⟨hsuspended, fun p hp hfailed => ?_⟩
        rcases List.mem_cons.mp hp with rfl | hp
        · obtain ⟨e, he⟩ := hfailed
          rw [hok] at he
          cases he
        · exact honly p hp hfailed
  | @suspended _ _ _ r error _ _ herror =>
    constructor
    · exact fun _ => ⟨r, List.mem_singleton_self _, error, herror⟩
    · intro q hq e he
      refine ⟨rfl, fun p hp _ => ?_⟩
      rw [List.mem_singleton.mp hp, List.mem_singleton.mp hq]

theorem Turns.keepsEnded (h : Turns o executions i t recs o' u) : KeepsEnded t u := by
  induction h with
  | done => exact .refl _
  | recorded hr _ _ _ ih => exact hr.keepsEnded.trans ih
  | suspended hr => exact hr.keepsEnded

theorem Turns.ended (h : Turns o executions i t recs o' u) : ∀ r ∈ recs, r.New →
    r.settled = .ok () →
      u.attempts.find? r.intent.requestId = some (r.settle.attempt r.intent.record) := by
  induction h with
  | done => simp
  | recorded hr _ _ rest ih =>
    intro q hq hnew hok
    rcases List.mem_cons.mp hq with rfl | hq
    · exact find_eq_some_iff.mpr ⟨rest.keepsEnded _ (hr.ends hnew hok) nofun, rfl⟩
    · exact ih q hq hnew hok
  | suspended _ _ herror =>
    intro q hq _ hok
    rw [List.mem_singleton.mp hq, herror] at hok
    cases hok

/-- The law holds of a cycle exactly when no recording is without its intent. -/
theorem Turns.logs_iff (h : Turns o executions 0 t recs o' u) (ho : o.suspended = false) :
    LogsAndContinues o o' executions recs u ↔ ∀ r ∈ recs, r.Accepted := by
  obtain ⟨hsuspended, honly⟩ := h.failed ho
  constructor
  · intro hlaw r hr
    have hlawful := h.lawful r hr
    refine hlawful.accepted_of_new ?_
    by_contra hnew
    cases hsettled : r.settled with
    | ok _ =>
      obtain ⟨a, ha, hgone⟩ := hlawful.changes hnew hsettled
      exact hgone (hlaw.kept r hr hnew a ha)
    | error e =>
      -- The only failure is this one, and its attempt is not there.
      obtain ⟨hdown, hlast⟩ := honly r hr e hsettled
      obtain ⟨q, hq, hqnew, hfailed⟩ := hlaw.suspended ho hdown
      rw [hlast q hq hfailed] at hqnew
      exact hnew hqnew
  · intro haccepted
    have hnew : ∀ r ∈ recs, r.New := fun r hr => new_of_accepted (haccepted r hr)
    constructor
    · intro _ hdown
      obtain ⟨r, hr, hfailed⟩ := hsuspended hdown
      exact ⟨r, hr, hnew r hr, hfailed⟩
    · exact fun r hr hnot => absurd (hnew r hr) hnot
    · exact fun _ hup => h.offered hup
    · exact h.ended

end Turns

section Runs

variable {s u t : Host} {intent : RebalanceAttemptIntent} {settlement : RebalanceSettle}

theorem tables_of_intent {paid : Option String} {receipt : IntentReceipt}
    (h : queueAnswers (.insertIntent intent paid) s receipt t) :
    s.tables.inserted intent = some t.tables ∨ t.tables = s.tables := by
  have hran : ∀ faults, s.tables.inserted intent =
      some (call (insertRebalanceAttempt intent) faults s.tables).2 ∨
        (call (insertRebalanceAttempt intent) faults s.tables).2 = s.tables := by
    intro faults
    have hcall := call_atomic faults
      (insertRebalanceAttempt_atomic (t := s.tables) intent rfl rfl)
    rcases hcall with ⟨a, -, hinserted⟩ | ⟨-, hsame⟩
    · exact .inl hinserted
    · exact .inr hsame
  cases h with
  | refused => exact .inr rfl
  | replied faults _ => exact hran faults
  | unheard faults => exact hran faults
  | lost => exact .inr rfl

theorem tables_of_settle {reply : Except String Unit}
    (h : queueAnswers (.settle settlement) s reply t) :
    s.tables.settled settlement = some t.tables ∨ t.tables = s.tables := by
  have hran : ∀ faults, s.tables.settled settlement =
      some (call (settleRebalanceAttempt settlement) faults s.tables).2 ∨
        (call (settleRebalanceAttempt settlement) faults s.tables).2 = s.tables := by
    intro faults
    have hcall := call_atomic faults
      (settleRebalanceAttempt_atomic (t := s.tables) settlement rfl rfl)
    rcases hcall with ⟨a, -, hsettled⟩ | ⟨-, hsame⟩
    · exact .inl hsettled
    · exact .inr hsame
  cases h with
  | replied faults _ => exact hran faults
  | unheard faults _ => exact hran faults
  | gone => exact .inr rfl

theorem tablesAt_of_run {α : Type} {p : Owner α} {a : α} {log : Moments}
    (h : queueWorld.Run p s log (.ret a) t) : tablesAt log t = s.tables := by
  cases h with
  | here => rfl
  | drift h => exact h.elim
  | answer => rfl

theorem recordings_turn {s u v : Host} {now : ℤ} {paid : Option String} {receipt : IntentReceipt}
    {settled : Except String Unit} (log : Moments) (t : Host) :
    recordings (⟨s, .clock, now⟩ :: ⟨u, .insertIntent intent paid, receipt⟩ ::
      ⟨v, .settle settlement, settled⟩ :: log) t =
        ⟨intent, settlement, u.tables, v.tables, settled, tablesAt log t⟩ :: recordings log t := rfl

theorem settlementFor_requestId (outcome : RebalanceSubmitOutcome) (requestId : String) (now : ℤ) :
    (settlementFor outcome requestId now).requestId = requestId := by
  cases outcome <;> rfl

variable [SerdeJson] {config : OwnerConfig} {o o' : OwnerState} {cycle : CycleResult}
  {result : Outcome RebalanceRefusal CycleSummary} {log : Moments}

theorem turns_of_run {executions : List CycleExecution} {i recorded : ℕ}
    (h : queueWorld.Run (recordExecutions o cycle executions i recorded) s log
      (.ret (o', result)) t) :
    Turns o executions i s.tables (recordings log t) o' t.tables := by
  induction executions generalizing i recorded s log with
  | nil =>
    obtain ⟨rfl, hresult, rfl⟩ := queue_ret h
    obtain rfl := (Prod.mk.inj hresult).1
    exact .done i _
  | cons execution executions ih =>
    obtain ⟨now, u, log, rfl, hclock, hafterClock⟩ := queue_call h
    obtain rfl : u = s := hclock
    obtain ⟨receipt, between, log, rfl, hintent, hafterIntent⟩ := queue_call hafterClock
    obtain ⟨settled, after, log, rfl, hsettle, hrest⟩ := queue_call hafterIntent
    let requestId := s!"cycle-{now}-{i}"
    let r : Recording :=
      ⟨cycleIntent execution.result now requestId,
        settlementFor (classifyExecution execution.result) requestId now, u.tables,
        between.tables, settled, after.tables⟩
    have hlawful : r.Lawful := by
      refine ⟨tables_of_intent hintent, ?_, tables_of_settle hsettle, settlementFor_requestId _ _ _⟩
      intro hok
      change settled = .ok () at hok
      subst hok
      exact settled_of_answer hsettle
    have hof : r.IsOf (execution, i) := ⟨now, rfl, rfl⟩
    have hafter : tablesAt log t = after.tables := by
      cases settled with
      | error e => exact tablesAt_of_run hrest
      | ok _ => exact tablesAt_of_run hrest
    rw [recordings_turn, hafter]
    cases settled with
    | error e =>
      obtain ⟨rfl, hresult, rfl⟩ := queue_ret hrest
      obtain rfl := (Prod.mk.inj hresult).1
      exact .suspended hlawful hof rfl
    | ok _ => exact .recorded hlawful hof rfl (ih hrest)

theorem logs_nothing (o : OwnerState) (t : RebalanceTables) : LogsAndContinues o o [] [] t where
  suspended hup hdown := by simp [hup] at hdown
  kept r hr := by simp at hr
  offered _ _ := .nil
  ended r hr := by simp at hr

/-- A cycle logs what it loses and goes on exactly when the store takes the intent of every
execution that it is offered: without the attempt the settlement fails, or ends another one. -/
theorem cycle_logs_iff (h : queueWorld.Run (runCycle config o) s log (.ret (o', result)) t) :
    LogsAndContinues o o' (executionsOf log) (recordings log t) t.tables ↔
      ∀ r ∈ recordings log t, r.Accepted := by
  have hidle : ∀ refusal, queueWorld.Run (.ret (o, .err refusal)) s log (.ret (o', result)) t →
      (LogsAndContinues o o' (executionsOf log) (recordings log t) t.tables ↔
        ∀ r ∈ recordings log t, r.Accepted) := by
    intro refusal hrun
    obtain ⟨rfl, hresult, rfl⟩ := queue_ret hrun
    obtain rfl := (Prod.mk.inj hresult).1
    exact iff_of_true (logs_nothing o _) (by simp [recordings])
  unfold runCycle at h
  split at h
  · exact hidle _ h
  · rename_i hup
    rw [Bool.not_eq_true] at hup
    split at h
    · exact hidle _ h
    · obtain ⟨cycle, u, log, rfl, hcycle, hrest⟩ := queue_call h
      obtain rfl : u = s := hcycle
      exact (turns_of_run hrest).logs_iff hup

end Runs

section SameSecond

def idleExecution : CycleExecution := ⟨RebalanceEngine.failedResult "no_route" 100, none⟩

def firstRequest : String := s!"cycle-{(100 : ℤ)}-{(0 : ℕ)}"

def firstIntent : RebalanceAttemptIntent :=
  @cycleIntent silentJson idleExecution.result 100 firstRequest

def firstSettle : RebalanceSettle :=
  settlementFor (classifyExecution idleExecution.result) firstRequest 100

def intentHost : Host := emptyHost.ran (insertRebalanceAttempt firstIntent) []

def firstHost : Host := intentHost.ran (settleRebalanceAttempt firstSettle) []

def firstLog : Moments :=
  [⟨emptyHost, .engineCycle, ⟨[idleExecution], 0⟩⟩, ⟨emptyHost, .clock, (100 : ℤ)⟩,
    ⟨emptyHost, .insertIntent firstIntent none, .replied (.ok ())⟩,
    ⟨intentHost, .settle firstSettle, .ok ()⟩]

/-- The next cycle of the same second: its first request is taken. -/
def secondLog : Moments :=
  [⟨firstHost, .engineCycle, ⟨[idleExecution, idleExecution], 0⟩⟩,
    ⟨firstHost, .clock, (100 : ℤ)⟩,
    ⟨firstHost, .insertIntent firstIntent none, .replied (.error "UNIQUE")⟩,
    ⟨firstHost, .settle firstSettle, .error "already terminal"⟩]

theorem first_cycle : queueWorld.Run (@runCycle silentJson anyConfig .fresh) emptyHost firstLog
    (.ret (.fresh, .ok ⟨1, 1, 0⟩)) firstHost := by
  let json := silentJson
  refine .answer (u := firstHost) (t := emptyHost) rfl ?_
  refine .answer (t := emptyHost) rfl ?_
  refine .answer (t := intentHost) ?_ ?_
  · exact IntentReply.inserted (s := emptyHost) (by decide)
  refine .answer (t := firstHost) ?_ (.here _ _)
  exact SettleReply.settled (s := intentHost) (by decide)

instance : DecidableEq RebalanceTables := fun t u =>
  decidable_of_iff (t.attempts = u.attempts ∧ t.reservations = u.reservations)
    RebalanceTables.ext_iff.symm

theorem ran_eq_self {s : Host} {m : Rail Unit} {faults : List (Option Fault)}
    (h : (call m faults s.tables).2 = s.tables) : s.ran m faults = s := by
  rw [Host.ran, h]

/-- Neither command changes a row, and the owner is suspended with an execution to go. -/
theorem second_cycle : queueWorld.Run (@runCycle silentJson anyConfig .fresh) firstHost secondLog
    (.ret (⟨true, [], 0⟩, .err (.settlePersistenceUnknown firstRequest "already terminal")))
    firstHost := by
  let json := silentJson
  have hinsert : firstHost.ran (insertRebalanceAttempt firstIntent) [] = firstHost :=
    ran_eq_self (by decide)
  have hsettle : firstHost.ran (settleRebalanceAttempt firstSettle) [] = firstHost :=
    ran_eq_self (by decide)
  refine .answer (t := firstHost) rfl ?_
  refine .answer (t := firstHost) rfl ?_
  refine .answer (t := firstHost) ?_ ?_
  · have hreply : IntentReply firstIntent firstHost (.replied (.error "UNIQUE"))
        (firstHost.ran (insertRebalanceAttempt firstIntent) []) := by
      refine .replied [] ?_
      simp only [reduceCtorEq, false_iff]
      decide
    rw [hinsert] at hreply
    exact hreply
  refine .answer (t := firstHost) ?_ (.here _ _)
  have hreply : SettleReply firstSettle firstHost (.error "already terminal")
      (firstHost.ran (settleRebalanceAttempt firstSettle) []) := by
    refine .replied [] ?_
    simp only [reduceCtorEq, false_iff]
    decide
  rw [hsettle] at hreply
  exact hreply

/-- Two cycles within one second: the second one suspends a healthy owner. -/
theorem second_cycle_suspends : ∃ first second result t, ∃ u : Host,
    queueWorld.Run (@runCycle silentJson anyConfig .fresh) emptyHost first
      (.ret (.fresh, .ok ⟨1, 1, 0⟩)) t ∧
    queueWorld.Run (@runCycle silentJson anyConfig .fresh) t second
      (.ret (⟨true, [], 0⟩, result)) u ∧
    ¬ @LogsAndContinues silentJson .fresh ⟨true, [], 0⟩ (executionsOf second) (recordings second u)
      u.tables := by
  let json := silentJson
  refine ⟨firstLog, secondLog, _, firstHost, firstHost, first_cycle, second_cycle, fun h => ?_⟩
  obtain ⟨r, hr, hnew, -⟩ := h.suspended rfl rfl
  obtain rfl := List.mem_singleton.mp hr
  exact hnew.1 (by decide)

def laterRequest : String := s!"cycle-{(101 : ℤ)}-{(1 : ℕ)}"

def laterIntent : RebalanceAttemptIntent :=
  @cycleIntent silentJson paidExecution.result 101 laterRequest

def laterSettle : RebalanceSettle :=
  settlementFor (classifyExecution paidExecution.result) laterRequest 101

def laterIntentHost : Host :=
  (firstHost.pay laterRequest ["ab"]).ran (insertRebalanceAttempt laterIntent) []

def laterHost : Host := laterIntentHost.ran (settleRebalanceAttempt laterSettle) []

def bothLog : Moments :=
  [⟨emptyHost, .engineCycle, ⟨[idleExecution, paidExecution], 0⟩⟩,
    ⟨emptyHost, .clock, (100 : ℤ)⟩,
    ⟨emptyHost, .insertIntent firstIntent none, .replied (.ok ())⟩,
    ⟨intentHost, .settle firstSettle, .ok ()⟩,
    ⟨firstHost, .clock, (101 : ℤ)⟩,
    ⟨firstHost, .insertIntent laterIntent (some "ab"), .replied (.ok ())⟩,
    ⟨laterIntentHost, .settle laterSettle, .ok ()⟩]

theorem cycle_of_both : queueWorld.Run (@runCycle silentJson anyConfig .fresh) emptyHost bothLog
    (.ret (.fresh, .ok ⟨2, 2, 0⟩)) laterHost := by
  let json := silentJson
  refine .answer (u := laterHost) (t := emptyHost) rfl ?_
  refine .answer (t := emptyHost) rfl ?_
  refine .answer (t := intentHost) ?_ ?_
  · exact IntentReply.inserted (s := emptyHost) (by decide)
  refine .answer (t := firstHost) ?_ ?_
  · exact SettleReply.settled (s := intentHost) (by decide)
  refine .answer (t := firstHost) rfl ?_
  refine .answer (t := laterIntentHost) ?_ ?_
  · exact IntentReply.inserted (s := firstHost.pay laterRequest ["ab"]) (by decide)
  refine .answer (t := laterHost) ?_ (.here _ _)
  exact SettleReply.settled (s := laterIntentHost) (by decide)

theorem both_are_logged : @LogsAndContinues silentJson .fresh .fresh (executionsOf bothLog)
    (recordings bothLog laterHost) laterHost.tables := by
  let json := silentJson
  refine (cycle_logs_iff cycle_of_both).mpr fun r hr => ?_
  obtain rfl | hr := List.mem_cons.mp hr
  · change emptyHost.tables.inserted firstIntent = some intentHost.tables
    decide
  · obtain rfl := List.mem_singleton.mp hr
    change firstHost.tables.inserted laterIntent = some laterIntentHost.tables
    decide

end SameSecond

end RebalanceOwner
