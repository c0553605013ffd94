import RevenueOps.IntentRegistry
import RevenueOps.StateMachine

/-! Whole runs of the live registry under the extended rules: what can be in flight together,
whatever the order of arrivals, releases and expiries, and however the clock moves. -/
namespace IntentRegistry

open EconIntents KeyedTable StateMachine

inductive Call where
  | checkAndRegister (env : IntentEnvelope) (now : ℤ)
  | release (key : String)
  | activeCount (now : ℤ)

/-- The active set, and every envelope that was registered, the latest first. -/
structure Session where
  active : Active
  arrivals : List IntentEnvelope

def startSession : Session := ⟨Table.empty, []⟩

def step (s : Session) : Call → Session
  | .checkAndRegister env now =>
    { active := (checkAndRegister s.active env now true).2
      arrivals :=
        if (checkAndRegister s.active env now true).1 = none then env :: s.arrivals
        else s.arrivals }
  | .release key => { s with active := release s.active key }
  | .activeCount now => { s with active := prune s.active now }

/-- The registry takes every call, under an extended-rules provider that stays true. -/
def registry : Machine Session Call := ⟨fun _ _ => True, step⟩

def Current (arrivals : List IntentEnvelope) (e : IntentEnvelope) : Prop :=
  ∃ newer older, arrivals = newer ++ e :: older ∧
    ∀ x ∈ newer, x.idempotencyKey ≠ e.idempotencyKey

/-- The first envelope was registered, and is still the latest of its key, when the second was. -/
def RegisteredBefore (arrivals : List IntentEnvelope) (r c : IntentEnvelope) : Prop :=
  ∃ newer older, arrivals = newer ++ c :: older ∧ Current older r ∧
    ∀ x ∈ newer, x.idempotencyKey ≠ c.idempotencyKey ∧ x.idempotencyKey ≠ r.idempotencyKey

structure Compatible (s : Session) : Prop where
  opens : ∀ a ∈ s.active.rows, ∀ b ∈ s.active.rows, a.intentType = .openChannel →
    b.intentType = .openChannel → a.target = b.target → a = b
  swaps : ∀ r ∈ s.active.rows, ∀ o ∈ s.active.rows, r.intentType = .rebalance →
    o.intentType = .swapOut → r.target ≠ o.target
  closes : ∀ r ∈ s.active.rows, ∀ c ∈ s.active.rows, r.intentType = .rebalance →
    c.intentType = .closeChannel → r.target = c.target → RegisteredBefore s.arrivals r c
  current : ∀ e ∈ s.active.rows, Current s.arrivals e

variable {a b : Active} {env e : IntentEnvelope} {now : ℤ} {extended : Bool} {s : Session}

theorem mem_prune : e ∈ (prune a now).rows ↔ e ∈ a.rows ∧ now < e.expiresAt.value := by
  simp [prune, Table.deleteWhere]

theorem holdsTarget_iff {t : IntentType} {target : String} :
    holdsTarget a t target = true ↔ ∃ x ∈ a.rows, x.intentType = t ∧ x.target = target := by
  simp [holdsTarget]

theorem Compatible.subset {t : Session} (h : Compatible s)
    (hsub : ∀ e ∈ t.active.rows, e ∈ s.active.rows) (harr : t.arrivals = s.arrivals) :
    Compatible t where
  opens x hx y hy := h.opens x (hsub x hx) y (hsub y hy)
  swaps r hr o ho := h.swaps r (hsub r hr) o (hsub o ho)
  closes r hr c hc hreb hclose htarget :=
    harr ▸ h.closes r (hsub r hr) c (hsub c hc) hreb hclose htarget
  current e he := harr ▸ h.current e (hsub e he)

theorem checkAndRegister_blocked {code : Code}
    (h : (checkAndRegister a env now extended).1 = some code) :
    (checkAndRegister a env now extended).2 = prune a now := by
  unfold checkAndRegister at *
  cases hc : conflict (prune a now) env extended with
  | some c => rfl
  | none => simp [hc] at h

/-- A call that does not block adds the envelope to the pruned set. -/
theorem checkAndRegister_passed (h : (checkAndRegister a env now extended).1 = none) :
    conflict (prune a now) env extended = none ∧
      (checkAndRegister a env now extended).2 = (prune a now).insertOrReplace env := by
  unfold checkAndRegister at *
  cases hc : conflict (prune a now) env extended with
  | some c => simp [hc] at h
  | none => exact ⟨rfl, rfl⟩

/-- What the set cannot hold when the extended rules let the envelope pass. -/
theorem conflict_none (h : conflict a env true = none) :
    (∀ x ∈ a.rows, x.idempotencyKey ≠ env.idempotencyKey) ∧
      (env.intentType = .rebalance → holdsTarget a .closeChannel env.target = false) ∧
      (env.intentType = .openChannel → holdsTarget a .openChannel env.target = false) ∧
      ∀ other, swapOpposite env.intentType = some other →
        holdsTarget a other env.target = false := by
  have hfind := find_of_no_conflict h
  unfold conflict at h
  rw [if_neg (by simp [hfind])] at h
  split at h
  · simp at h
  · rename_i hclose
    rw [if_pos rfl] at h
    split at h
    · simp at h
    · rename_i hopen
      refine ⟨?_, by simpa using hclose, by simpa using hopen, ?_⟩
      · intro x hx hkey
        have hsome := find_eq_some_iff.mpr ⟨hx, hkey⟩
        rw [hfind] at hsome
        simp at hsome
      · intro other hother
        rw [hother] at h
        by_contra hheld
        rw [Bool.not_eq_false] at hheld
        simp [hheld] at h

theorem target_ne_of_not_held {t : IntentType} {target : String} {x : IntentEnvelope}
    (h : holdsTarget a t target = false) (hx : x ∈ a.rows) (ht : x.intentType = t) :
    x.target ≠ target := by
  intro htarget
  rw [holdsTarget_iff.mpr ⟨x, hx, ht, htarget⟩] at h
  simp at h

theorem Current.cons (h : Current s.arrivals e) (hkey : env.idempotencyKey ≠ e.idempotencyKey) :
    Current (env :: s.arrivals) e := by
  obtain ⟨newer, older, heq, hne⟩ := h
  refine ⟨env :: newer, older, by rw [heq]; rfl, ?_⟩
  intro x hx
  cases List.mem_cons.mp hx with
  | inl h => exact h ▸ hkey
  | inr h => exact hne x h

theorem RegisteredBefore.cons {r c : IntentEnvelope} (h : RegisteredBefore s.arrivals r c)
    (hc : env.idempotencyKey ≠ c.idempotencyKey) (hr : env.idempotencyKey ≠ r.idempotencyKey) :
    RegisteredBefore (env :: s.arrivals) r c := by
  obtain ⟨newer, older, heq, hcur, hne⟩ := h
  refine ⟨env :: newer, older, by rw [heq]; rfl, hcur, ?_⟩
  intro x hx
  cases List.mem_cons.mp hx with
  | inl h => exact h ▸ ⟨hc, hr⟩
  | inr h => exact hne x h

/-- Registering an envelope that passes the extended rules keeps the set compatible. -/
theorem Compatible.register (h : Compatible s) (hpass : conflict s.active env true = none) :
    Compatible ⟨s.active.insertOrReplace env, env :: s.arrivals⟩ := by
  obtain ⟨hkey, hclose, hopen, hswap⟩ := conflict_none hpass
  have hmem : ∀ x, x ∈ (s.active.insertOrReplace env).rows → x = env ∨ x ∈ s.active.rows := by
    intro x hx
    exact (mem_insertOrReplace.mp hx).imp_right And.left
  refine ⟨?_, ?_, ?_, ?_⟩
  · intro x hx y hy hxo hyo htarget
    cases hmem x hx with
    | inl hxe =>
      cases hmem y hy with
      | inl hye => rw [hxe, hye]
      | inr hys =>
        subst hxe
        exact absurd htarget.symm (target_ne_of_not_held (hopen hxo) hys hyo)
    | inr hxs =>
      cases hmem y hy with
      | inl hye =>
        subst hye
        exact absurd htarget (target_ne_of_not_held (hopen hyo) hxs hxo)
      | inr hys => exact h.opens x hxs y hys hxo hyo htarget
  · intro r hr o ho hreb hout htarget
    cases hmem r hr with
    | inl hre =>
      subst hre
      cases hmem o ho with
      | inl hoe => rw [hoe, hreb] at hout; simp at hout
      | inr hos =>
        exact target_ne_of_not_held (hswap .swapOut (by rw [hreb]; rfl)) hos hout htarget.symm
    | inr hrs =>
      cases hmem o ho with
      | inl hoe =>
        subst hoe
        exact target_ne_of_not_held (hswap .rebalance (by rw [hout]; rfl)) hrs hreb htarget
      | inr hos => exact h.swaps r hrs o hos hreb hout htarget
  · intro r hr c hc hreb hcl htarget
    cases hmem r hr with
    | inl hre =>
      subst hre
      cases hmem c hc with
      | inl hce => rw [hce, hreb] at hcl; simp at hcl
      | inr hcs => exact absurd htarget.symm (target_ne_of_not_held (hclose hreb) hcs hcl)
    | inr hrs =>
      cases hmem c hc with
      | inl hce =>
        -- a close that arrives after the rebalance is registered
        subst hce
        exact ⟨[], s.arrivals, rfl, h.current r hrs, by simp⟩
      | inr hcs =>
        exact (h.closes r hrs c hcs hreb hcl htarget).cons (hkey c hcs).symm (hkey r hrs).symm
  · intro e he
    cases hmem e he with
    | inl hee =>
      subst hee
      exact ⟨[], s.arrivals, rfl, by simp⟩
    | inr hes => exact (h.current e hes).cons (hkey e hes).symm

theorem Compatible.prune (h : Compatible s) (now : ℤ) :
    Compatible ⟨IntentRegistry.prune s.active now, s.arrivals⟩ :=
  h.subset (fun _ he => (mem_prune.mp he).1) rfl

theorem step_compatible (h : Compatible s) (call : Call) : Compatible (step s call) := by
  cases call with
  | checkAndRegister env now =>
    cases hcode : (checkAndRegister s.active env now true).1 with
    | some code =>
      simp only [step, hcode, checkAndRegister_blocked hcode]
      exact h.prune now
    | none =>
      obtain ⟨hpass, heq⟩ := checkAndRegister_passed hcode
      simp only [step, hcode, heq]
      exact (h.prune now).register hpass
  | release key =>
    refine h.subset (fun e he => ?_) rfl
    exact (List.mem_filter.mp he).1
  | activeCount now => exact h.prune now

theorem start_compatible : Compatible startSession := by
  constructor <;> intro e he <;> exact absurd he List.not_mem_nil

theorem run_compatible (calls : List Call) : Compatible (registry.run startSession calls) := by
  have hrun : registry.Follows (fun _ _ => True) startSession calls :=
    Machine.follows_of_forall fun _ _ => ⟨trivial, trivial⟩
  exact hrun.invariant start_compatible fun _ call h _ _ => step_compatible h call

def scan (values : List IntentEnvelope) (t : IntentType) (target : String) (code : Code) :
    Option Code :=
  values.findSome? fun active =>
    if active.intentType = t ∧ active.target = target then some code else none

/-- The checks of the registry as loops, each of which returns at the first hit. -/
def conflictInOrder (containsKey : Bool) (values : List IntentEnvelope) (env : IntentEnvelope)
    (extended : Bool) : Option Code :=
  if containsKey then some .intentSuperseded
  else
    (if env.intentType = .rebalance then
      scan values .closeChannel env.target .conflictCloseRebalance else none).or
    (if extended then
      (if env.intentType = .openChannel then
        scan values .openChannel env.target .conflictDuplicateOpen else none).or
      (match swapOpposite env.intentType with
        | some other => scan values other env.target .conflictRebalanceSwap
        | none => none)
    else none)

theorem scan_eq {values : List IntentEnvelope} (hv : values.Perm a.rows) (t : IntentType)
    (target : String) (code : Code) :
    scan values t target code = if holdsTarget a t target then some code else none := by
  by_cases hheld : holdsTarget a t target = true
  · obtain ⟨x, hx, hxt, hxtarget⟩ := holdsTarget_iff.mp hheld
    rw [if_pos hheld]
    unfold scan
    cases hscan : values.findSome? fun active =>
        if active.intentType = t ∧ active.target = target then some code else none with
    | none =>
      rw [List.findSome?_eq_none_iff] at hscan
      exact absurd (hscan x (hv.mem_iff.mpr hx)) (by simp [hxt, hxtarget])
    | some c =>
      obtain ⟨y, _, hy⟩ := List.exists_of_findSome?_eq_some hscan
      split at hy
      · exact hy.symm
      · simp at hy
  · rw [if_neg hheld, scan, List.findSome?_eq_none_iff]
    intro x hx
    rw [if_neg]
    rintro ⟨hxt, hxtarget⟩
    exact hheld (holdsTarget_iff.mpr ⟨x, hv.mem_iff.mp hx, hxt, hxtarget⟩)

/-- The code is the same in every order in which the entries can be visited. -/
theorem conflictInOrder_eq {values : List IntentEnvelope} (hv : values.Perm a.rows)
    (env : IntentEnvelope) (extended : Bool) :
    conflictInOrder (a.find? env.idempotencyKey).isSome values env extended =
      conflict a env extended := by
  unfold conflictInOrder conflict
  simp only [scan_eq hv]
  by_cases hkey : a.find? env.idempotencyKey = none
  · have habsent : ¬ (a.find? env.idempotencyKey).isSome = true := by simp [hkey]
    rw [if_neg habsent, if_neg (not_not_intro hkey)]
    by_cases hclose : env.intentType = .rebalance ∧ holdsTarget a .closeChannel env.target
    · simp [hclose.1, hclose.2]
    · have hnone : (if env.intentType = .rebalance then
          if holdsTarget a .closeChannel env.target = true then some Code.conflictCloseRebalance
          else none else none) = none := by
        split
        · rename_i hreb
          exact if_neg fun hheld => hclose ⟨hreb, hheld⟩
        · rfl
      rw [hnone, Option.none_or, if_neg hclose]
      cases extended with
      | false => rfl
      | true =>
        by_cases hopen : env.intentType = .openChannel
        · simp [hopen, swapOpposite]
        · cases swapOpposite env.intentType with
          | none => simp [hopen]
          | some other => simp [hopen]
  · rw [if_pos (by rwa [Option.isSome_iff_ne_none]), if_pos hkey]

/-- The live registry under the extended rules. Over every run of calls: no two opens of one
target, no rebalance with a swap out of its target, and a rebalance with a close of its target
only where the rebalance came first; a call that blocks leaves exactly the unexpired entries;
and the code is that of the loops in every order of iteration. -/
theorem registry_conflict_invariant (calls : List Call) :
    (∀ a ∈ (registry.run startSession calls).active.rows,
      ∀ b ∈ (registry.run startSession calls).active.rows,
        a.intentType = .openChannel → b.intentType = .openChannel → a.target = b.target → a = b) ∧
    (∀ r ∈ (registry.run startSession calls).active.rows,
      ∀ o ∈ (registry.run startSession calls).active.rows,
        r.intentType = .rebalance → o.intentType = .swapOut → r.target ≠ o.target) ∧
    (∀ r ∈ (registry.run startSession calls).active.rows,
      ∀ c ∈ (registry.run startSession calls).active.rows,
        r.intentType = .rebalance → c.intentType = .closeChannel → r.target = c.target →
          RegisteredBefore (registry.run startSession calls).arrivals r c) ∧
    (∀ env now extended code,
      (checkAndRegister (registry.run startSession calls).active env now extended).1 = some code →
        ∀ e, e ∈
          (checkAndRegister (registry.run startSession calls).active env now extended).2.rows ↔
          e ∈ (registry.run startSession calls).active.rows ∧ now < e.expiresAt.value) ∧
    (∀ env now extended values,
      values.Perm (prune (registry.run startSession calls).active now).rows →
        conflictInOrder
          ((prune (registry.run startSession calls).active now).find? env.idempotencyKey).isSome
          values env extended =
        (checkAndRegister (registry.run startSession calls).active env now extended).1) := by
  have h := run_compatible calls
  refine ⟨h.opens, h.swaps, h.closes, ?_, ?_⟩
  · intro env now extended code hcode e
    rw [checkAndRegister_blocked hcode, mem_prune]
  · intro env now extended values hv
    rw [conflictInOrder_eq hv, checkAndRegister]
    split <;> simp_all

end IntentRegistry
