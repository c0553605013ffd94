import RevenueOps.FeeOwnerSteps
import RevenueOps.FeeRunwayRuns

/-! The state store under the owner: the fee tables with the history of what was written to them,
and the answers that one message of the owner gets from it. -/
namespace FeeStore

open FallibleState SqlTransaction FeeRunway FeeOwner KeyedTable

section Store

structure Store where
  facts : List Fact
  tables : FeeTables
  represents : Represents facts tables

namespace Store

def virgin : Store := ⟨[], .empty, represents_empty⟩

def commits (s : Store) : List FeeCycleCommit := commitsOf s.facts
def generation (s : Store) : ℕ := s.commits.length
def keys (s : Store) : List String := s.commits.map FeeCycleCommit.cycleId

def row (s : Store) (channelId : String) : Option FeeStateRow :=
  (s.tables.states.find? channelId).map StateRecord.row

theorem represents_call {s : Store} (c : RunwayCall) (faults : List (Option Fault)) :
    Represents (s.facts ++ (c.fact (call c.run faults s.tables).1).toList)
      (call c.run faults s.tables).2 := by
  rcases call_applies c faults s.tables with ⟨f, hf, happlies⟩ | ⟨hnone, hsame⟩
  · rw [hf]
    exact s.represents.applies happlies
  · rw [hnone, hsame]
    simpa using s.represents

def exec (s : Store) (c : RunwayCall) (faults : List (Option Fault)) : Store :=
  ⟨_, _, represents_call (s := s) c faults⟩

def execAll (s : Store) (cs : List (RunwayCall × List (Option Fault))) : Store :=
  cs.foldl (fun s c => s.exec c.1 c.2) s

def reply {α : Type} (text : String) : Outcome RunwayError α → Except String α
  | .ok a => .ok a
  | _ => .error text

def commitReply (s : Store) (text : String) (faults : List (Option Fault))
    (commit : FeeCycleCommit) :
    Except String ℕ := reply text (call (commitFeeCycle commit) faults s.tables).1

def guardedReply (s : Store) (text : String) (faults : List (Option Fault))
    (commit : FeeCycleCommit)
    (expected : ℕ) : Except String GuardedCommitOutcome :=
  reply text (call (commitFeeCycleGuarded commit expected) faults s.tables).1

variable {s : Store} {faults : List (Option Fault)} {commit : FeeCycleCommit} {text : String}

theorem cycleRows_keys {commits : List FeeCycleCommit} :
    (cycleRows commits).map CycleRecord.cycleId = commits.map FeeCycleCommit.cycleId := by
  induction commits using List.reverseRecOn with
  | nil => rfl
  | append_singleton commits commit ih =>
    rw [cycleRows_snoc, List.map_append, List.map_append, ih]
    rfl

/-- The PRIMARY KEY of rust_fee_cycles. -/
theorem keys_nodup : s.keys.Nodup := by
  have hkeys : s.tables.cycles.rows.map CycleRecord.cycleId = s.keys := by
    rw [s.represents.cycles, cycleRows_keys]
    rfl
  rw [← hkeys]
  exact s.tables.cycles.nodup

theorem generation_eq : s.tables.currentGeneration.toNat = s.generation := by
  rw [s.represents.generation]
  rfl

theorem ext {t : Store} (hfacts : s.facts = t.facts) (htables : s.tables = t.tables) : s = t := by
  cases s
  cases t
  cases hfacts
  cases htables
  rfl

theorem exec_of_none {c : RunwayCall} (hnone : c.fact (call c.run faults s.tables).1 = none)
    (hsame : (call c.run faults s.tables).2 = s.tables) : s.exec c faults = s := by
  apply ext
  · simp [exec, hnone]
  · exact hsame

theorem reply_eq_ok {α : Type} {r : Outcome RunwayError α} {a : α} :
    reply text r = .ok a ↔ r = .ok a := by
  cases r <;> simp [reply]

theorem reply_of_not_ok {α : Type} {r : Outcome RunwayError α} (h : ∀ a, r ≠ .ok a) :
    reply text r = .error text := by
  cases r with
  | ok a => exact absurd rfl (h a)
  | err e => rfl
  | panic => rfl

/-- A commit that answers Ok is the next one of the history; one that does not left no trace. -/
theorem commit_step (s : Store) (text : String) (faults : List (Option Fault))
    (commit : FeeCycleCommit) :
    (s.commitReply text faults commit = .ok (s.generation + 1) ∧
      (s.exec (.commitFeeCycle commit) faults).commits = s.commits ++ [commit]) ∨
    (s.commitReply text faults commit = .error text ∧
      s.exec (.commitFeeCycle commit) faults = s) := by
  rcases call_atomic faults (@commitFeeCycle_atomic s.tables _ commit rfl rfl) with
    ⟨a, ha, n, hcommitted, hn⟩ | ⟨hnot, hsame⟩
  · left
    have hgeneration : a = s.generation + 1 := by
      have hcurrent := s.represents.generation
      rw [hn, hcommitted.next, hcurrent]
      rfl
    refine ⟨reply_eq_ok.mpr (hgeneration ▸ ha), ?_⟩
    unfold commits exec
    rw [commitsOf_append, RunwayCall.run, ha]
    rfl
  · right
    refine ⟨reply_of_not_ok hnot, exec_of_none ?_ hsame⟩
    cases hr : (call (RunwayCall.commitFeeCycle commit).run faults s.tables).1 with
    | ok a => exact absurd hr (hnot a)
    | err e => rfl
    | panic => rfl

/-- A guarded commit is the next one of the history exactly where it found the
expected generation. -/
theorem guarded_step (s : Store) (text : String) (faults : List (Option Fault))
    (commit : FeeCycleCommit)
    (expected : ℕ) :
    (s.guardedReply text faults commit expected = .ok (.committed (s.generation + 1)) ∧
      expected = s.generation ∧
      (s.exec (.commitFeeCycleGuarded commit expected) faults).commits = s.commits ++ [commit]) ∨
    (s.guardedReply text faults commit expected = .ok (.generationConflict expected s.generation) ∧
      s.exec (.commitFeeCycleGuarded commit expected) faults = s) ∨
    (s.guardedReply text faults commit expected = .error text ∧
      s.exec (.commitFeeCycleGuarded commit expected) faults = s) := by
  rcases call_atomic faults (@commitGuarded_atomic s.tables _ commit expected rfl rfl) with
    ⟨a, ha, ⟨n, rfl, hcommitted, hexpected⟩ | ⟨rfl, hsame⟩⟩ | ⟨hnot, hsame⟩
  · left
    have hgeneration : n.toNat = s.generation + 1 := by
      have hcurrent := s.represents.generation
      rw [hcommitted.next, hcurrent]
      rfl
    refine ⟨reply_eq_ok.mpr (hgeneration ▸ ha), ?_, ?_⟩
    · rw [← hexpected, generation_eq]
    · unfold commits exec
      rw [commitsOf_append, RunwayCall.run, ha]
      rfl
  · right
    left
    rw [generation_eq] at ha
    exact ⟨reply_eq_ok.mpr ha, exec_of_none (by rw [RunwayCall.run, ha]; rfl) hsame⟩
  · right
    right
    refine ⟨reply_of_not_ok hnot, exec_of_none ?_ hsame⟩
    cases hr : (call (RunwayCall.commitFeeCycleGuarded commit expected).run faults s.tables).1 with
    | ok a => exact absurd hr (hnot a)
    | err e => rfl
    | panic => rfl

theorem row_eq {channelId : String} :
    s.row channelId = (lastState s.commits channelId).map StateRecord.row := by
  unfold row
  rw [s.represents.states]
  rfl

theorem row_of_commits {t : Store} (h : t.commits = s.commits ++ [commit]) {channelId : String} :
    t.row channelId = (commit.lastRow channelId).or (s.row channelId) := by
  rw [row_eq, row_eq, h, lastState_snoc]
  cases commit.lastRow channelId <;> rfl

theorem generation_of_commits {t : Store} (h : t.commits = s.commits ++ [commit]) :
    t.generation = s.generation + 1 := by
  unfold generation
  rw [h, List.length_append]
  rfl

end Store

end Store

section Turn

variable {ι τ : Type}

/-- How the store behaves while the owner handles one message: which calls fail, what other
clients write between its idempotency read and its commit, and what it answers otherwise. -/
structure StoreTurn where
  errorText : String
  existsFails : Bool
  between : List (RunwayCall × List (Option Fault))
  faults : List (Option Fault)
  others : StoreReplies

namespace StoreTurn

def replies (turn : StoreTurn) (s : Store) : StoreReplies :=
  { turn.others with
    cycleExists := fun key =>
      if turn.existsFails then .error turn.errorText else .ok (s.tables.hasCycle key)
    commitFeeCycle := fun commit =>
      (s.execAll turn.between).commitReply turn.errorText turn.faults commit }

def apply (turn : StoreTurn) (s : Store) : OwnerEffect ι τ → Store
  | .commitFeeCycle commit => s.exec (.commitFeeCycle commit) turn.faults
  | .recordSeedRefusal event => s.exec (.recordSeedRefusal event) []
  | _ => s

def after (turn : StoreTurn) (s : Store) (es : List (OwnerEffect ι τ)) : Store :=
  es.foldl turn.apply (s.execAll turn.between)

end StoreTurn

end Turn

section Example

/-- A kernel over channel states of one number and fee states of a fee and a posterior mean. -/
def sampleKernel : FeeKernel ℤ (ℤ × ℤ) where
  serializeStateEnvelope cycle fee :=
    toString cycle ++ "/" ++ toString fee.1 ++ "/" ++ toString fee.2
  lastUpdate cycle := cycle
  rehydrateRow row := .ok (row.lastUpdate, 100, 0)
  lastFeePpm fee := fee.1
  isFeeRelevantFailure failcode _ := failcode = some 4108
  failedForwardImpliedFee fee := fee / 2
  recordPosteriorNudge fee implied _ _ := (fee.1, implied)
  weightText := toString
  failedForwardEventKey signal :=
    signal.channelId ++ "@" ++ toString signal.eventTs ++ "@" ++ toString signal.amountMsat
  sourceCommit := "s"
  binarySha256 := "b"
  processId := 1

def quietReplies : StoreReplies where
  cycleExists _ := .ok false
  commitFeeCycle _ := .error "no store"
  loadLatestState := .ok ⟨0, []⟩
  verifiedSeedBinding := .ok .virginStore
  recordRestartMarker := .ok ()
  refreshMempoolWindow := .ok ()
  queryMempoolSamplesSince := .ok ()
  launchCycleExists := .ok ()
  launchCommit := .ok ()
  launchTriggerEvent := .ok ()
  launchRetentionSweep := .ok ()

def quietTurn : StoreTurn := ⟨"store failed", false, [], [], quietReplies⟩

/-- A pass that wakes nothing and decides nothing, over one channel of the Python database. -/
def quietPass : Pass ℤ (ℤ × ℤ) Unit where
  now := 10
  sweptAt := 10
  evidence _ := some ⟨[], fun _ => none⟩
  wakeAll _ := (⟨[], []⟩, 0)
  vegasSpikeCheck _ := (⟨[], []⟩, false)
  handlePolicyChange _ _ := (⟨[], []⟩, 0)
  pythonRows := ⟨[("1x1x1", 0)], [("1x1x1", (100, 0))]⟩
  seedOnceFromPython := .seeded (seedEvent "seeded") ⟨[("1x1x1", 0)], [("1x1x1", (100, 0))]⟩
  runFeeCycle _ _ := (some ⟨0, 0, [], [], []⟩, ⟨[], []⟩)
  decideInitialFee _ _ _ := ⟨none, none, none, none, .passive, "policy_passive"⟩

def cyclePrepared : PreparedCycle Unit := ⟨some 1, false, false, ()⟩

end Example

end FeeStore
