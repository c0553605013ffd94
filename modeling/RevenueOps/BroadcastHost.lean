import RevenueOps.FeeBroadcaster
import RevenueOps.FeeRunwayWrites

/-! What the store commands of the broadcaster do to the tables, and what no step of the
broadcaster's host undoes: a set flag, an active quarantine, an attempt on record. -/
namespace FeeBroadcaster

open FallibleState SqlTransaction KeyedTable FeeRunway FeeTables InteractiveProgram JsonValue

section Commands

variable {t u : FeeTables} {c : StoreCommand} {faults : List (Option Fault)}

def StoreCommand.Writes (t : FeeTables) :
    (c : StoreCommand) → c.Result → FeeTables → Prop
  | activeExecutionQuarantine, a, u => a = t.activeEntry ∧ u = t
  | currentStateGeneration, n, u => n = t.currentGeneration.toNat ∧ u = t
  | insertBroadcastAttempt intent, id, u =>
      id = t.attempts.nextKey ∧ t.insertAttempt intent = some u
  | recordBroadcastAttemptResult id outcome outcomeDetail completedAt, _, u =>
    u = t.setOutcome id outcome outcomeDetail completedAt ∧ ∃ r ∈ t.attempts.rows, r.id = id
  | insertExecutionQuarantine entry, id, u =>
    id = t.quarantine.nextKey ∧ t.insertQuarantineRow entry = some u
  | reconcileQuarantineOnRestart now, _, u => Reconciled t now u

theorem run_atomic (c : StoreCommand) {d : Connection FeeTables} (hdb : d.db = t)
    (htx : d.tx = none) : wp c.run (Atomic t (c.Writes t)) d := by
  cases c with
  | activeExecutionQuarantine => exact select_atomic hdb htx
  | currentStateGeneration => exact currentStateGeneration_atomic hdb htx
  | insertBroadcastAttempt intent => exact executeInsert_atomic hdb htx
  | recordBroadcastAttemptResult id outcome outcomeDetail completedAt =>
    exact recordResult_atomic hdb htx
  | insertExecutionQuarantine entry => exact executeInsert_atomic hdb htx
  | reconcileQuarantineOnRestart now => exact reconcile_atomic hdb htx

theorem call_cases (c : StoreCommand) (faults : List (Option Fault)) (t : FeeTables) :
    (∃ a, (call c.run faults t).1 = .ok a ∧ c.Writes t a (call c.run faults t).2) ∨
      ((∀ a, (call c.run faults t).1 ≠ .ok a) ∧ (call c.run faults t).2 = t) :=
  call_atomic faults (run_atomic c rfl rfl)

theorem insertAttempt_eq {intent : BroadcastAttemptIntent} (h : t.insertAttempt intent = some u) :
    u.quarantine = t.quarantine ∧
      u.attempts.rows = t.attempts.rows ++ [⟨t.attempts.nextKey, intent, none, none, none⟩] := by
  unfold FeeTables.insertAttempt at h
  split at h
  · cases h
  · cases h
    exact ⟨rfl, rfl⟩

theorem Writes.quarantined {a : c.Result} (h : c.Writes t a u) (hq : t.Quarantined) :
    u.Quarantined := by
  cases c with
  | activeExecutionQuarantine => exact h.2 ▸ hq
  | currentStateGeneration => exact h.2 ▸ hq
  | insertBroadcastAttempt intent =>
    unfold FeeTables.Quarantined
    rw [(insertAttempt_eq h.2).1]
    exact hq
  | recordBroadcastAttemptResult id outcome outcomeDetail completedAt =>
    rw [h.1]
    exact hq
  | insertExecutionQuarantine entry => exact (insertQuarantineRow_eq h.2).2.1
  | reconcileQuarantineOnRestart now =>
    cases h with
    | idle _ => exact hq
    | restored _ _ => exact hq
    | entered _ hu => exact (insertQuarantineRow_eq hu).2.1

/-- What every commit of a command keeps, a call of it keeps whatever fails. -/
theorem call_keeps {A : FeeTables → Prop} (hA : A t) (h : ∀ a u, c.Writes t a u → A u) :
    A (call c.run faults t).2 := by
  rcases call_cases c faults t with ⟨a, -, ha⟩ | ⟨-, hsame⟩
  · exact h a _ ha
  · rw [hsame]
    exact hA

theorem commit_keeps (commit : FeeCycleCommit) (faults : List (Option Fault)) (t : FeeTables) :
    (call (commitFeeCycle commit) faults t).2.attempts = t.attempts ∧
      (call (commitFeeCycle commit) faults t).2.quarantine = t.quarantine := by
  have hcommit := call_atomic faults (@commitFeeCycle_atomic t _ commit rfl rfl)
  rcases hcommit with ⟨a, -, n, hcommitted, -⟩ | ⟨-, hsame⟩
  · exact ⟨hcommitted.attempts, hcommitted.quarantine⟩
  · rw [hsame]
    exact ⟨rfl, rfl⟩

end Commands

section Steps

variable {s t : Host} {op : Op} {r : Reply op}

/-- The tables after an answer: the same, or those that a command left. -/
inductive Touched (s t : Host) : Prop where
  | same (h : t.tables = s.tables)
  | ran (c : StoreCommand) (faults : List (Option Fault))
      (h : t.tables = (call c.run faults s.tables).2)

theorem Receipt.touched {c : StoreCommand} {w : StoreReceiptWait c.Result} (h : Receipt c s w t) :
    Touched s t ∧ t.poisoned = s.poisoned ∧ t.wire = s.wire := by
  cases h with
  | replied faults _ => exact ⟨.ran c faults rfl, rfl, rfl⟩
  | unknown => exact ⟨.same rfl, rfl, rfl⟩

theorem Awaited.touched {c : StoreCommand} {w : StoreReceiptWait c.Result} (h : Awaited c s w t) :
    Touched s t ∧ t.poisoned = s.poisoned ∧ t.wire = s.wire := by
  cases h with
  | receipt h => exact h.touched
  | gone => exact ⟨.same rfl, rfl, rfl⟩
  | dropped => exact ⟨.same rfl, rfl, rfl⟩

inductive Change (s : Host) : Host → Prop where
  | stays : Change s s
  | flag : Change s { s with poisoned := true }
  | store {t : Host} (h : Touched s t) (hpoisoned : t.poisoned = s.poisoned)
      (hwire : t.wire = s.wire) : Change s t
  | write (params : Json) :
      Change s { s with wire := s.wire ++ [⟨params, s.tables.attempts.rows, none⟩] }
  | reply (handle : ℕ) (r : CallReply) :
      Change s { s with wire := s.wire.modify handle fun w => { w with reply := some r } }

theorem answers_change (h : hostWorld.answers op s r t) : Change s t := by
  cases op with
  | storePoisoned =>
    cases h
    exact .flag
  | store c =>
    obtain ⟨htouched, hpoisoned, hwire⟩ := Awaited.touched h
    exact .store htouched hpoisoned hwire
  | tryStore c =>
    cases r with
    | error _ =>
      cases h
      exact .stays
    | ok w =>
      obtain ⟨htouched, hpoisoned, hwire⟩ := Receipt.touched h
      exact .store htouched hpoisoned hwire
  | setchannel params =>
    obtain ⟨-, rfl⟩ := h
    exact .write params
  | response handle =>
    cases h
    exact .reply handle r
  | loadPoisoned =>
    obtain ⟨-, rfl⟩ := h
    exact .stays
  | _ =>
    cases h
    exact .stays

theorem answers_poisoned (h : hostWorld.answers op s r t) (hs : s.poisoned = true) :
    t.poisoned = true := by
  cases answers_change h with
  | flag => rfl
  | store _ hpoisoned _ => exact hpoisoned.trans hs
  | _ => exact hs

theorem Touched.quarantined (h : Touched s t) (hs : s.tables.Quarantined) :
    t.tables.Quarantined := by
  cases h with
  | same h => rwa [h]
  | ran c faults h =>
    rw [h]
    exact call_keeps hs fun a u ha => Writes.quarantined ha hs

theorem answers_quarantined (h : hostWorld.answers op s r t) (hs : s.tables.Quarantined) :
    t.tables.Quarantined := by
  cases answers_change h with
  | store htouched _ _ => exact htouched.quarantined hs
  | _ => exact hs

theorem Receipt.confirmed {c : StoreCommand} {a : c.Result} (h : Receipt c s (.replied (.ok a)) t) :
    c.Writes s.tables a t.tables ∧ t = s.after t.tables := by
  cases h with
  | replied faults hr =>
    refine ⟨?_, rfl⟩
    rcases call_cases c faults s.tables with ⟨v, hv, hwrites⟩ | ⟨hnot, -⟩
    · rw [hv] at hr
      cases hr
      exact hwrites
    · cases hcall : (call c.run faults s.tables).1 with
      | ok v => exact absurd hcall (hnot v)
      | err e => simp [hcall, runwayResult] at hr
      | panic => simp [hcall, runwayResult] at hr

theorem Awaited.confirmed {c : StoreCommand} {a : c.Result} (h : Awaited c s (.replied (.ok a)) t) :
    c.Writes s.tables a t.tables ∧ t = s.after t.tables := by
  cases h with
  | receipt h => exact h.confirmed

theorem inserted_quarantines {entry : QuarantineEntry} {id : ℕ}
    (h : Awaited (.insertExecutionQuarantine entry) s (.replied (.ok id)) t) :
    t.tables.Quarantined := by
  obtain ⟨-, hinsert⟩ := (Awaited.confirmed h).1
  exact (insertQuarantineRow_eq hinsert).2.1

theorem read_of_quarantined (hs : s.tables.Quarantined)
    {w : StoreReceiptWait (Option QuarantineRow)} (h : Awaited .activeExecutionQuarantine s w t) :
    w ≠ .replied (.ok none) := by
  rintro rfl
  obtain ⟨hread, -⟩ := (Awaited.confirmed h).1
  exact activeEntry_eq_none.mp hread.symm hs

theorem drifts_quarantined : hostWorld.Stable fun s => s.tables.Quarantined := by
  intro s t hs h
  cases h with
  | lands hc faults => exact call_keeps hs fun a u ha => Writes.quarantined ha hs
  | lost i => exact hs
  | commits commit faults =>
    unfold FeeTables.Quarantined at hs ⊢
    rw [Host.after, (commit_keeps commit faults s.tables).2]
    exact hs

theorem drifts_poisoned (b : Bool) : hostWorld.Stable fun s => s.poisoned = b := by
  intro s t hs h
  cases h <;> exact hs

theorem drifts_wire (wire : List WireWrite) : hostWorld.Stable fun s => s.wire = wire := by
  intro s t hs h
  cases h <;> exact hs

end Steps

end FeeBroadcaster
