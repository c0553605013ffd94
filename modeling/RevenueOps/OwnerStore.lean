import RevenueOps.FeeStore
import RevenueOps.StateMachine

/-! The SeedOnce owner and its state store as two processes. Commands for a new channel are executed
in any order after their dispatch; their results come back late, again, or from nobody at all. -/
namespace OwnerStore

open FallibleState SqlTransaction FeeRunway FeeOwner FeeStore KeyedTable CycleOwner StateMachine

variable {κ φ ι τ : Type}

section World

/-- A guarded commit on its way to the store, under the identity of its dispatch. -/
structure Dispatch where
  channelId : String
  eventKey : String
  generation : ℕ
  commit : FeeCycleCommit
  expectedPriorGeneration : ℕ

structure Check where
  channelId : String
  eventKey : String
  generation : ℕ

def dispatchOf : OwnerEffect ι τ → Option Dispatch
  | .dispatchCommit channelId eventKey generation commit expected =>
    some ⟨channelId, eventKey, generation, commit, expected⟩
  | _ => none

def checkOf : OwnerEffect ι τ → Option Check
  | .dispatchCycleExists channelId eventKey generation => some ⟨channelId, eventKey, generation⟩
  | _ => none

/-- One result handled: the owner before it, and before a waiting cycle runs after it. -/
structure ResultRecord (κ φ ι τ : Type) where
  result : InitialFeeStoreResult
  before : CycleOwner κ φ ι τ
  after : CycleOwner κ φ ι τ

structure World (κ φ ι τ : Type) where
  owner : CycleOwner κ φ ι τ
  store : Store
  checks : List Check
  commits : List Dispatch
  dispatched : List Dispatch
  results : List InitialFeeStoreResult
  applied : List (ResultRecord κ φ ι τ)

inductive Event (κ φ ι τ : Type) where
  | message (msg : CycleMsg ι τ) (pass : Pass κ φ ι) (turn : StoreTurn)
  | executeCheck (i : ℕ)
  | executeCommit (i : ℕ) (text : String) (faults : List (Option Fault))

def World.resultRecord (K : FeeKernel κ φ) (w : World κ φ ι τ) (pass : Pass κ φ ι)
    (turn : StoreTurn) :
    CycleMsg ι τ → Option (ResultRecord κ φ ι τ)
  | .initialFeeStoreResult result =>
    some ⟨result, w.owner, (w.owner.applyStoreResult K pass (turn.replies w.store) result).1⟩
  | _ => none

def World.handled (K : FeeKernel κ φ) (w : World κ φ ι τ) (msg : CycleMsg ι τ) (pass : Pass κ φ ι)
    (turn : StoreTurn) : World κ φ ι τ :=
  let handled := w.owner.handle K pass (turn.replies w.store) msg
  { owner := handled.1
    store := turn.after w.store handled.2
    checks := w.checks ++ handled.2.filterMap checkOf
    commits := w.commits ++ handled.2.filterMap dispatchOf
    dispatched := w.dispatched ++ handled.2.filterMap dispatchOf
    results := w.results
    applied := w.applied ++ (w.resultRecord K pass turn msg).toList }

def World.checked (w : World κ φ ι τ) (i : ℕ) (c : Check) : World κ φ ι τ :=
  { w with
    checks := w.checks.eraseIdx i
    results := w.results ++ [.idempotency c.channelId c.eventKey c.generation
      (.ok (w.store.tables.hasCycle c.eventKey, w.store.generation))] }

def World.committed (w : World κ φ ι τ) (i : ℕ) (d : Dispatch) (text : String)
    (faults : List (Option Fault)) : World κ φ ι τ :=
  { w with
    store := w.store.exec (.commitFeeCycleGuarded d.commit d.expectedPriorGeneration) faults
    commits := w.commits.eraseIdx i
    results := w.results ++ [.commit d.channelId d.eventKey d.generation
      (w.store.guardedReply text faults d.commit d.expectedPriorGeneration)] }

def next (K : FeeKernel κ φ) (w : World κ φ ι τ) : Event κ φ ι τ → World κ φ ι τ
  | .message msg pass turn => w.handled K msg pass turn
  | .executeCheck i =>
    match w.checks[i]? with
    | some c => w.checked i c
    | none => w
  | .executeCommit i text faults =>
    match w.commits[i]? with
    | some d => w.committed i d text faults
    | none => w

def interleaved : CycleMsg ι τ → Bool
  | .runPrepared _ _ => true
  | .newChannel _ => true
  | .newChannelRefused _ _ _ _ => true
  | .initialFeeStoreResult _ => true
  | .failedForward _ => true
  | _ => false

/-- Every commit that the owner waits for succeeds, and nobody else writes meanwhile. -/
structure Enabled (K : FeeKernel κ φ) (w : World κ φ ι τ) (msg : CycleMsg ι τ) (pass : Pass κ φ ι)
    (turn : StoreTurn) : Prop where
  interleaved : interleaved msg = true
  alone : turn.between = []
  succeeds : ∀ commit, .commitFeeCycle commit ∈
    (w.owner.handle K pass (turn.replies w.store) msg).2 →
    ∃ generation, (turn.replies w.store).commitFeeCycle commit = .ok generation

def machine (K : FeeKernel κ φ) : Machine (World κ φ ι τ) (Event κ φ ι τ) where
  Enabled w e := ∀ msg pass turn, e = .message msg pass turn → Enabled K w msg pass turn
  next := next K

end World

section Rows

def stateRow (K : FeeKernel κ φ) (channelId : String) (s : φ × κ) : FeeStateRow :=
  ⟨channelId, K.serializeStateEnvelope s.2 s.1, K.lastUpdate s.2⟩

def memoryRow (K : FeeKernel κ φ) (s : ControllerState κ φ) (channelId : String) :
    Option FeeStateRow :=
  match s.feeStates.get? channelId, s.cycleStates.get? channelId with
  | some fee, some cycle => some (stateRow K channelId (fee, cycle))
  | _, _ => none

variable {K : FeeKernel κ φ} {s : ControllerState κ φ} {channelId : String}

theorem find_stateRows {entries : List (String × κ)} (hn : (entries.map Prod.fst).Nodup) :
    (entries.filterMap fun entry => (s.feeStates.get? entry.1).map fun fee =>
        (⟨entry.1, K.serializeStateEnvelope entry.2 fee, K.lastUpdate entry.2⟩ :
          FeeStateRow)).reverse.find?
      (fun row => row.channelId = channelId) =
    (entries.find? fun entry => entry.1 = channelId).bind fun entry =>
      (s.feeStates.get? channelId).map fun fee => stateRow K channelId (fee, entry.2) := by
  induction entries using List.reverseRecOn with
  | nil => rfl
  | append_singleton entries entry ih =>
    rw [List.map_append] at hn
    obtain ⟨hentries, -, hdisjoint⟩ := List.nodup_append.mp hn
    rw [List.filterMap_append, List.find?_append]
    by_cases hentry : entry.1 = channelId
    · have hnone : entries.find? (fun entry => entry.1 = channelId) = none := by
        apply List.find?_eq_none.mpr
        intro other hother hsame
        have hsame : other.1 = channelId := by simpa using hsame
        exact hdisjoint other.1 (List.mem_map_of_mem hother) entry.1 (by simp)
          (hsame.trans hentry.symm)
      subst hentry
      have hrest := ih hentries
      rw [hnone] at hrest ⊢
      cases hfee : s.feeStates.get? entry.1 with
      | none => simpa [hfee] using hrest
      | some fee => simp [hfee, stateRow]
    · cases hfee : s.feeStates.get? entry.1 with
      | none => simpa [hfee, hentry] using ih hentries
      | some fee => simpa [hfee, hentry] using ih hentries

theorem lastRow_stateRows {commit : FeeCycleCommit} (hrows : commit.stateRows = stateRows K s) :
    commit.lastRow channelId = memoryRow K s channelId := by
  unfold FeeCycleCommit.lastRow
  rw [hrows]
  unfold stateRows
  rw [find_stateRows s.cycleStates.nodup]
  unfold memoryRow Dict.get? Table.find?
  cases s.cycleStates.rows.find? fun entry => entry.1 = channelId with
  | none => cases s.feeStates.rows.find? fun entry => entry.1 = channelId <;> rfl
  | some entry => cases s.feeStates.rows.find? fun entry => entry.1 = channelId <;> rfl

theorem memoryRow_write {w : StateWrites κ φ} (hnone : memoryRow K (s.write w) channelId = none) :
    memoryRow K s channelId = none := by
  unfold memoryRow at hnone ⊢
  cases hfee : s.feeStates.get? channelId with
  | none => rfl
  | some fee =>
    cases hcycle : s.cycleStates.get? channelId with
    | none => rfl
    | some cycle =>
      have hfee' : ((s.write w).feeStates.get? channelId).isSome :=
        Dict.isSome_insertAll (by rw [hfee]; rfl)
      have hcycle' : ((s.write w).cycleStates.get? channelId).isSome :=
        Dict.isSome_insertAll (by rw [hcycle]; rfl)
      obtain ⟨fee', hfee'⟩ := Option.isSome_iff_exists.mp hfee'
      obtain ⟨cycle', hcycle'⟩ := Option.isSome_iff_exists.mp hcycle'
      rw [hfee', hcycle'] at hnone
      cases hnone

theorem memoryRow_written {t : ControllerState κ φ} (h : Written s t)
    (hnone : memoryRow K t channelId = none) : memoryRow K s channelId = none := by
  induction h with
  | same => exact hnone
  | write w _ ih => exact ih (memoryRow_write hnone)

theorem memoryRow_insert {fee : φ} {cycle : κ} {other : String} :
    memoryRow K ⟨s.cycleStates.insert channelId cycle, s.feeStates.insert channelId fee⟩ other =
      if channelId = other then some (stateRow K channelId (fee, cycle))
        else memoryRow K s other := by
  unfold memoryRow
  by_cases hother : channelId = other
  · subst hother
    simp
  · simp [Dict.get_insert_ne hother, hother]

end Rows

end OwnerStore
