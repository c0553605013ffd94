import RevenueOps.EconIntents
import RevenueOps.KeyedTable

/-! Live arbitration: the set of intents in flight, keyed by idempotency key.
An entry leaves the set when it is released by key or when its envelope has expired. -/
namespace IntentRegistry

open EconIntents KeyedTable

abbrev Active := Table IntentEnvelope String IntentEnvelope.idempotencyKey

def prune (a : Active) (now : ℤ) : Active := a.deleteWhere fun env => env.expiresAt.value ≤ now

def holdsTarget (a : Active) (t : IntentType) (target : String) : Bool :=
  a.rows.any fun active => active.intentType = t ∧ active.target = target

def swapOpposite : IntentType → Option IntentType
  | .rebalance => some .swapOut
  | .swapOut => some .rebalance
  | _ => none

/-- The rule that blocks the envelope, on the pruned set. -/
def conflict (a : Active) (env : IntentEnvelope) (extended : Bool) : Option Code :=
  if a.find? env.idempotencyKey ≠ none then some .intentSuperseded
  else if env.intentType = .rebalance ∧ holdsTarget a .closeChannel env.target then
    some .conflictCloseRebalance
  else if extended then
    if env.intentType = .openChannel ∧ holdsTarget a .openChannel env.target then
      some .conflictDuplicateOpen
    else
      match swapOpposite env.intentType with
      | some other => if holdsTarget a other env.target then some .conflictRebalanceSwap else none
      | none => none
  else none

def checkAndRegister (a : Active) (env : IntentEnvelope) (now : ℤ) (extended : Bool) :
    Option Code × Active :=
  match conflict (prune a now) env extended with
  | some code => (some code, prune a now)
  | none => (none, (prune a now).insertOrReplace env)

def release (a : Active) (key : String) : Active :=
  a.deleteWhere fun env => env.idempotencyKey = key

def activeCount (a : Active) (now : ℤ) : ℕ := (prune a now).rows.length

/-- Two sets are one to a reader that takes entries by key. -/
def SameActive (a b : Active) : Prop := ∀ k, a.find? k = b.find? k

theorem find_prune {a : Active} {now : ℤ} {k : String} {env : IntentEnvelope} :
    (prune a now).find? k = some env ↔ a.find? k = some env ∧ now < env.expiresAt.value := by
  rw [prune, find_deleteWhere_eq_some]
  simp

theorem find_release {a : Active} {key k : String} {env : IntentEnvelope} :
    (release a key).find? k = some env ↔ a.find? k = some env ∧ k ≠ key := by
  rw [release, find_deleteWhere_eq_some]
  constructor
  · rintro ⟨h, hk⟩
    refine ⟨h, fun he => ?_⟩
    subst he
    simp [find_key h] at hk
  · rintro ⟨h, hk⟩
    refine ⟨h, ?_⟩
    simpa [find_key h] using hk

theorem prune_prune (a : Active) (now : ℤ) :
    SameActive (prune (prune a now) now) (prune a now) := by
  intro k
  ext env
  rw [find_prune, find_prune]
  tauto

/-- An envelope that is registered was not in the pruned set. -/
theorem find_of_no_conflict {a : Active} {env : IntentEnvelope} {extended : Bool}
    (h : conflict a env extended = none) : a.find? env.idempotencyKey = none := by
  unfold conflict at h
  by_contra hf
  simp [hf] at h

theorem registered_differs {a : Active} {env : IntentEnvelope} {now : ℤ}
    (hnone : (prune a now).find? env.idempotencyKey = none) (hlive : now < env.expiresAt.value) :
    ¬SameActive (prune ((prune a now).insertOrReplace env) now) (prune a now) := by
  intro h
  have hfind : (prune ((prune a now).insertOrReplace env) now).find? env.idempotencyKey =
      some env := find_prune.mpr ⟨by simp, hlive⟩
  rw [h, hnone] at hfind
  simp at hfind

end IntentRegistry
