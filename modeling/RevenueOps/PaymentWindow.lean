import Mathlib.Data.List.Nodup
import Mathlib.Order.Nat
import RevenueOps.StateMachine

/-! Cycles, explicit executions and workers around the inflight destinations of one engine.
The cycle lock orders the callers, but not the workers that a cycle abandons: those keep taking
steps after the lock was released. -/
namespace PaymentWindow

open StateMachine

/-- execute_pair registers between the policy check and the reservation; its guard unregisters. -/
inductive Phase where
  | spawned
  | paying
  | ended
  deriving DecidableEq, Repr

/-- One call of execute_pair, on a worker thread or on the caller's own. -/
structure Execution where
  dest : String
  phase : Phase
  deriving DecidableEq, Repr

inductive Holder where
  | cycle
  | selected (dests : List String)
  | collecting (workers : List ℕ)
  | explicit (dest : String)
  | cleared (dest : String)
  | executing (i : ℕ)
  deriving DecidableEq, Repr

structure State where
  holder : Option Holder
  inflight : List String
  executions : List Execution
  deriving DecidableEq, Repr

def initial : State := ⟨none, [], []⟩

/-- InflightDests::register: an empty id is ignored. -/
def register (inflight : List String) (dest : String) : List String :=
  if dest = "" then inflight else inflight ++ [dest]

/-- InflightDests::unregister: one count less. -/
def unregister (inflight : List String) (dest : String) : List String := inflight.erase dest

inductive Event where
  | beginCycle
  | select (planned : List String)
  | spawn (dests : List String)
  | beginExplicit (dest : String)
  | check
  | execute
  | block (i : ℕ)
  | register (i : ℕ)
  | unregister (i : ℕ)
  | release
  | expire
  deriving DecidableEq, Repr

def atPhase (s : State) (i : ℕ) (p : Phase) : Prop :=
  s.executions[i]?.any (fun e => e.phase = p) = true

instance (s : State) (i : ℕ) (p : Phase) : Decidable (atPhase s i p) :=
  inferInstanceAs (Decidable (_ = true))

/-- A cycle collects until its workers have ended; only the ceiling lets it go before that. -/
def mayRelease (s : State) : Option Holder → Bool
  | none => false
  | some (.collecting workers) => workers.all fun i => atPhase s i .ended
  | some (.executing i) => atPhase s i .ended
  | some _ => true

/-- The policy gates and the arbiter only drop and reorder selected pairs. -/
def maySpawn (dests : List String) : Option Holder → Bool
  | some (.selected ds) => dests.all fun d => d ∈ ds
  | _ => false

def isExplicit : Option Holder → Bool
  | some (.explicit _) => true
  | _ => false

def isCleared : Option Holder → Bool
  | some (.cleared _) => true
  | _ => false

def isCollecting : Option Holder → Bool
  | some (.collecting _) => true
  | _ => false

def Enabled (s : State) : Event → Prop
  | .beginCycle => s.holder = none
  | .select _ => s.holder = some .cycle
  | .spawn dests => maySpawn dests s.holder = true
  | .beginExplicit _ => s.holder = none
  | .check => isExplicit s.holder = true
  | .execute => isCleared s.holder = true
  | .block i => atPhase s i .spawned
  | .register i => atPhase s i .spawned
  | .unregister i => atPhase s i .paying
  | .release => mayRelease s s.holder = true
  | .expire => isCollecting s.holder = true

instance (s : State) (e : Event) : Decidable (Enabled s e) := by
  cases e <;> exact inferInstanceAs (Decidable (_ = _))

def setPhase (s : State) (i : ℕ) (p : Phase) : List Execution :=
  match s.executions[i]? with
  | some e => s.executions.set i { e with phase := p }
  | none => s.executions

def destOf (s : State) (i : ℕ) : String := (s.executions[i]?.map Execution.dest).getD ""

def next (s : State) : Event → State
  | .beginCycle => { s with holder := some .cycle }
  | .select planned =>
    { s with holder := some (.selected (planned.filter fun d => d ∉ s.inflight)) }
  | .spawn dests =>
    { s with
      holder := some (.collecting (List.range' s.executions.length dests.length))
      executions := s.executions ++ dests.map fun d => ⟨d, .spawned⟩ }
  | .beginExplicit dest => { s with holder := some (.explicit dest) }
  | .check =>
    match s.holder with
    | some (.explicit d) =>
      { s with holder := if d = "" ∨ d ∈ s.inflight then none else some (.cleared d) }
    | _ => s
  | .execute =>
    match s.holder with
    | some (.cleared d) =>
      { s with
        holder := some (.executing s.executions.length)
        executions := s.executions ++ [⟨d, .spawned⟩] }
    | _ => s
  | .block i => { s with executions := setPhase s i .ended }
  | .register i =>
    { s with
      inflight := register s.inflight (destOf s i)
      executions := setPhase s i .paying }
  | .unregister i =>
    { s with
      inflight := unregister s.inflight (destOf s i)
      executions := setPhase s i .ended }
  | .release => { s with holder := none }
  | .expire => { s with holder := none }

def engine : Machine State Event := ⟨Enabled, next⟩

instance (s : State) (e : Event) : Decidable (engine.Enabled s e) :=
  inferInstanceAs (Decidable (Enabled s e))

def Exclusive (s : State) : Prop :=
  ∀ (i j : ℕ) (e f : Execution), s.executions[i]? = some e → s.executions[j]? = some f → i ≠ j →
    e.phase = .paying → f.phase = .paying → e.dest ≠ f.dest

def DistinctDests : Event → Prop
  | .spawn dests => dests.Nodup
  | _ => True

instance (e : Event) : Decidable (DistinctDests e) := by
  cases e <;> first | exact isTrue trivial | exact inferInstanceAs (Decidable (List.Nodup _))

def Registered (s : State) (d : String) : Prop :=
  ∀ e ∈ s.executions, e.dest = d → e.phase ≠ .spawned

instance (s : State) (d : String) : Decidable (Registered s d) :=
  inferInstanceAs (Decidable (∀ e ∈ s.executions, e.dest = d → e.phase ≠ .spawned))

def looksUp (s : State) : Event → List String
  | .select planned => planned
  | .check =>
    match s.holder with
    | some (.explicit d) => if d = "" then [] else [d]
    | _ => []
  | _ => []

/-- Every destination that a snapshot lets through is a real one with no unregistered execution. -/
def SnapshotCovers (s : State) (e : Event) : Prop :=
  ∀ d ∈ looksUp s e, d ∉ s.inflight → d ≠ "" ∧ Registered s d

instance (s : State) (e : Event) : Decidable (SnapshotCovers s e) :=
  inferInstanceAs (Decidable (∀ d ∈ looksUp s e, d ∉ s.inflight → d ≠ "" ∧ Registered s d))

def paysAt (d : String) (e : Execution) : Bool := e.phase = .paying ∧ e.dest = d
def activeAt (d : String) (e : Execution) : Bool := e.phase ≠ .ended ∧ e.dest = d

def offered : Option Holder → List String
  | some (.selected ds) => ds
  | some (.cleared d) => [d]
  | _ => []

structure Invariant (s : State) : Prop where
  counted : ∀ d, s.inflight.count d = s.executions.countP (paysAt d)
  single : ∀ d, s.executions.countP (activeAt d) ≤ 1
  named : ∀ e ∈ s.executions, e.dest ≠ ""
  free : ∀ d ∈ offered s.holder, d ≠ "" ∧ s.executions.countP (activeAt d) = 0

theorem initial_invariant : Invariant initial := by
  constructor <;> simp [initial, offered]

/-- One element changes: the count loses the old one and gains the new one. -/
theorem countP_set_add {α : Type} {p : α → Bool} {l : List α} {i : ℕ} {a : α} (b : α)
    (h : l[i]? = some a) :
    (l.set i b).countP p + (if p a then 1 else 0) = l.countP p + (if p b then 1 else 0) := by
  induction l generalizing i with
  | nil => simp at h
  | cons c l ih =>
    cases i with
    | zero =>
      obtain rfl : c = a := by simpa using h
      simp only [List.set_cons_zero, List.countP_cons]
      omega
    | succ i =>
      have := ih (by simpa using h)
      simp only [List.set_cons_succ, List.countP_cons]
      omega

theorem atPhase_iff {s : State} {i : ℕ} {p : Phase} :
    atPhase s i p ↔ ∃ d, s.executions[i]? = some ⟨d, p⟩ := by
  unfold atPhase
  cases h : s.executions[i]? with
  | none => simp
  | some e =>
    obtain ⟨d, q⟩ := e
    simp

/-- Phases move forward: nothing becomes active, and the payment count follows the phases. -/
structure Moved (s : State) (d : String) (p q : Phase) (executions : List Execution) : Prop where
  paying : ∀ d', executions.countP (paysAt d') + (if paysAt d' ⟨d, p⟩ then 1 else 0) =
    s.executions.countP (paysAt d') + (if paysAt d' ⟨d, q⟩ then 1 else 0)
  active : ∀ d', executions.countP (activeAt d') ≤ s.executions.countP (activeAt d')
  named : (∀ e ∈ s.executions, e.dest ≠ "") → ∀ e ∈ executions, e.dest ≠ ""

theorem setPhase_moved {s : State} {i : ℕ} {d : String} {p q : Phase}
    (h : s.executions[i]? = some ⟨d, p⟩) (hp : p ≠ .ended) :
    Moved s d p q (setPhase s i q) := by
  have hset : setPhase s i q = s.executions.set i ⟨d, q⟩ := by simp [setPhase, h]
  rw [hset]
  refine ⟨fun d' => countP_set_add _ h, fun d' => ?_, fun hnamed e he => ?_⟩
  · have hcount := countP_set_add (p := activeAt d') ⟨d, q⟩ h
    by_cases hd : d = d'
    · have : activeAt d' ⟨d, p⟩ = true := by simp [activeAt, hd, hp]
      simp only [this, if_true] at hcount
      split at hcount <;> omega
    · have : ∀ q, activeAt d' ⟨d, q⟩ = false := by simp [activeAt, hd]
      simp only [this, Bool.false_eq_true, if_false, Nat.add_zero] at hcount
      omega
  · rcases List.mem_or_eq_of_mem_set he with he | rfl
    · exact hnamed e he
    · exact hnamed ⟨d, p⟩ (List.mem_of_getElem? h)

theorem Invariant.moved {s : State} (hs : Invariant s) {d : String} {p q : Phase}
    {executions : List Execution} (hm : Moved s d p q executions) {inflight : List String}
    (hcount : ∀ d', inflight.count d' = executions.countP (paysAt d')) :
    Invariant ⟨s.holder, inflight, executions⟩ := by
  refine ⟨hcount, fun d' => (hm.active d').trans (hs.single d'), hm.named hs.named, ?_⟩
  intro d' hd'
  exact ⟨(hs.free d' hd').1, Nat.le_zero.mp ((hm.active d').trans (hs.free d' hd').2.le)⟩

theorem Invariant.withHolder {s : State} (hs : Invariant s) {holder : Option Holder}
    (hfree : ∀ d ∈ offered holder, d ≠ "" ∧ s.executions.countP (activeAt d) = 0) :
    Invariant { s with holder := holder } := ⟨hs.counted, hs.single, hs.named, hfree⟩

theorem Invariant.spawn {s : State} (hs : Invariant s) {dests : List String} (hdests : dests.Nodup)
    (hfree : ∀ d ∈ dests, d ≠ "" ∧ s.executions.countP (activeAt d) = 0) {holder : Option Holder}
    (hholder : offered holder = []) :
    Invariant ⟨holder, s.inflight, s.executions ++ dests.map fun d => ⟨d, .spawned⟩⟩ := by
  have hpays : ∀ d, (dests.map fun d => (⟨d, .spawned⟩ : Execution)).countP (paysAt d) = 0 := by
    intro d
    simp [List.countP_eq_zero, paysAt]
  have hactive : ∀ d, (dests.map fun d => (⟨d, .spawned⟩ : Execution)).countP (activeAt d) =
      dests.count d := by
    intro d
    rw [List.countP_map, List.count]
    congr 1
    funext d'
    simp [activeAt, beq_eq_decide]
  refine ⟨fun d => ?_, fun d => ?_, fun e he => ?_, by simp [hholder]⟩
  · rw [List.countP_append, hpays, Nat.add_zero]
    exact hs.counted d
  · rw [List.countP_append, hactive]
    by_cases hd : d ∈ dests
    · rw [(hfree d hd).2, Nat.zero_add]
      exact List.nodup_iff_count_le_one.mp hdests d
    · rw [List.count_eq_zero_of_not_mem hd]
      exact hs.single d
  · rcases List.mem_append.mp he with he | he
    · exact hs.named e he
    · obtain ⟨d, hd, rfl⟩ := List.mem_map.mp he
      exact (hfree d hd).1

/-- A destination that is neither registered nor about to be has no active execution. -/
theorem Invariant.free_of_registered {s : State} (hs : Invariant s) {d : String}
    (hinflight : d ∉ s.inflight) (hregistered : Registered s d) :
    s.executions.countP (activeAt d) = 0 := by
  have hpays := hs.counted d
  rw [List.count_eq_zero_of_not_mem hinflight] at hpays
  have hnone := List.countP_eq_zero.mp hpays.symm
  apply List.countP_eq_zero.mpr
  intro e he hactive
  simp only [activeAt, decide_eq_true_eq] at hactive
  cases hphase : e.phase with
  | spawned => exact hregistered e he hactive.2 hphase
  | paying => exact hnone e he (by simp [paysAt, hphase, hactive.2])
  | ended => exact hactive.1 hphase

theorem step_invariant {s : State} {e : Event} (hs : Invariant s) (he : Enabled s e)
    (hdistinct : DistinctDests e) (hcovers : SnapshotCovers s e) : Invariant (next s e) := by
  cases e with
  | beginCycle => exact hs.withHolder (by simp [offered])
  | select planned =>
    apply hs.withHolder
    intro d hd
    obtain ⟨hplanned, hinflight⟩ := List.mem_filter.mp hd
    have hd' := of_decide_eq_true hinflight
    obtain ⟨hne, hregistered⟩ := hcovers d hplanned hd'
    exact ⟨hne, hs.free_of_registered hd' hregistered⟩
  | spawn dests =>
    refine hs.spawn hdistinct (fun d hd => ?_) rfl
    apply hs.free
    change maySpawn dests s.holder = true at he
    unfold maySpawn at he
    split at he
    · rename_i ds hholder
      rw [hholder]
      exact of_decide_eq_true (List.all_eq_true.mp he d hd)
    · cases he
  | beginExplicit dest => exact hs.withHolder (by simp [offered])
  | check =>
    unfold next
    dsimp only
    split
    · rename_i d hholder
      apply hs.withHolder
      by_cases hd : d = "" ∨ d ∈ s.inflight
      · simp [hd, offered]
      · simp only [hd, if_false, offered, List.mem_singleton, forall_eq]
        have hne : d ≠ "" ∧ d ∉ s.inflight := by simpa using hd
        have hlooks : d ∈ looksUp s .check := by simp [looksUp, hholder, hne.1]
        exact ⟨hne.1, hs.free_of_registered hne.2 (hcovers d hlooks hne.2).2⟩
    · exact hs
  | execute =>
    unfold next
    dsimp only
    split
    · rename_i d hholder
      refine hs.spawn (List.nodup_singleton d) (fun d' hd' => ?_) rfl
      apply hs.free
      rw [hholder]
      exact hd'
    · exact hs
  | block i =>
    obtain ⟨d, hi⟩ := atPhase_iff.mp he
    have hm := setPhase_moved (q := .ended) hi (by simp)
    refine hs.moved hm fun d' => ?_
    have := hm.paying d'
    simp only [paysAt] at this
    rw [hs.counted d']
    simpa using this.symm
  | register i =>
    obtain ⟨d, hi⟩ := atPhase_iff.mp he
    have hm := setPhase_moved (q := .paying) hi (by simp)
    refine hs.moved hm fun d' => ?_
    have hd : destOf s i = d := by simp [destOf, hi]
    have hne : d ≠ "" := hs.named _ (List.mem_of_getElem? hi)
    have hcount := hm.paying d'
    simp only [paysAt, reduceCtorEq, false_and, decide_false, Bool.false_eq_true, if_false,
      true_and, decide_eq_true_eq, Nat.add_zero] at hcount
    rw [hd, register, if_neg hne, List.count_append, hs.counted d', List.count_singleton, hcount]
    simp [beq_eq_decide]
  | unregister i =>
    obtain ⟨d, hi⟩ := atPhase_iff.mp he
    have hm := setPhase_moved (q := .ended) hi (by simp)
    refine hs.moved hm fun d' => ?_
    have hd : destOf s i = d := by simp [destOf, hi]
    have hcount := hm.paying d'
    simp only [paysAt, reduceCtorEq, false_and, decide_false, Bool.false_eq_true, if_false,
      true_and, decide_eq_true_eq, Nat.add_zero] at hcount
    rw [hd, unregister, List.count_erase, hs.counted d']
    by_cases hsame : d = d'
    · simp only [hsame, beq_self_eq_true, if_true] at hcount ⊢
      omega
    · simp only [hsame, beq_iff_eq, if_false] at hcount ⊢
      omega
  | release => exact hs.withHolder (by simp [offered])
  | expire => exact hs.withHolder (by simp [offered])

/-- At most one active execution at each destination leaves no two payments at one. -/
theorem Invariant.exclusive {s : State} (hs : Invariant s) : Exclusive s := by
  intro i j e f hi hj hne he hf hdest
  have hother : 1 ≤ (s.executions.set i ⟨"", .ended⟩).countP (activeAt e.dest) := by
    apply List.one_le_countP_iff.mpr
    refine ⟨f, List.mem_of_getElem? (i := j) ?_, by simp [activeAt, hf, hdest]⟩
    rw [List.getElem?_set_ne hne]
    exact hj
  have hcount := countP_set_add (p := activeAt e.dest) ⟨"", .ended⟩ hi
  have hactive : activeAt e.dest e = true := by simp [activeAt, he]
  have hsingle := hs.single e.dest
  simp only [hactive, if_true] at hcount
  simp only [activeAt, ne_eq, not_true_eq_false, false_and, decide_false, Bool.false_eq_true,
    if_false] at hcount hother hsingle
  omega

/-- Two unregistered executions at one destination end up in their windows together. -/
theorem register_both {s : State} {i j : ℕ} {d : String} (hne : i ≠ j)
    (hi : s.executions[i]? = some ⟨d, .spawned⟩) (hj : s.executions[j]? = some ⟨d, .spawned⟩) :
    engine.Follows (fun _ e => DistinctDests e) s [.register i, .register j] ∧
      ¬ Exclusive (engine.run s [.register i, .register j]) := by
  have hset : setPhase s i .paying = s.executions.set i ⟨d, .paying⟩ := by simp [setPhase, hi]
  have hj' : (next s (.register i)).executions[j]? = some ⟨d, .spawned⟩ := by
    rw [next, hset, List.getElem?_set_ne hne]
    exact hj
  have hi' : (next s (.register i)).executions[i]? = some ⟨d, .paying⟩ := by
    rw [next, hset, List.getElem?_set_self (List.getElem?_eq_some_iff.mp hi).1]
  have hset' : setPhase (next s (.register i)) j .paying =
      (next s (.register i)).executions.set j ⟨d, .paying⟩ := by simp [setPhase, hj']
  refine ⟨⟨atPhase_iff.mpr ⟨d, hi⟩, trivial, atPhase_iff.mpr ⟨d, hj'⟩, trivial, trivial⟩, ?_⟩
  intro hexclusive
  refine hexclusive i j ⟨d, .paying⟩ ⟨d, .paying⟩ ?_ ?_ hne rfl rfl rfl
  · change (setPhase (next s (.register i)) j .paying)[i]? = _
    rw [hset', List.getElem?_set_ne hne.symm]
    exact hi'
  · change (setPhase (next s (.register i)) j .paying)[j]? = _
    rw [hset', List.getElem?_set_self (List.getElem?_eq_some_iff.mp hj').1]

theorem start_offered {s : State} {d : String} (h : d ∈ offered s.holder) :
    ∃ e, Enabled s e ∧ DistinctDests e ∧
      (next s e).executions = s.executions ++ [⟨d, .spawned⟩] := by
  cases hholder : s.holder with
  | none => simp [hholder, offered] at h
  | some holder =>
    rw [hholder] at h
    cases holder with
    | selected ds =>
      have hd : d ∈ ds := h
      refine ⟨.spawn [d], ?_, List.nodup_singleton d, rfl⟩
      simp [Enabled, maySpawn, hholder, hd]
    | cleared d' =>
      obtain rfl : d = d' := by simpa [offered] using h
      refine ⟨.execute, by simp [Enabled, isCleared, hholder], trivial, ?_⟩
      simp [next, hholder]
    | cycle | collecting | explicit | executing => simp [offered] at h

/-- The condition leaves nothing out: a snapshot that misses an unregistered execution at a
destination can be followed by two payments there. -/
theorem uncovered_breaks {s : State} {e : Event} (he : Enabled s e) {d : String}
    (hlooks : d ∈ looksUp s e) (hinflight : d ∉ s.inflight) (hmissed : ¬ Registered s d) :
    ∃ es, engine.Follows (fun _ e => DistinctDests e) s (e :: es) ∧
      ¬ Exclusive (engine.run s (e :: es)) := by
  have hoffers : d ∈ offered (next s e).holder ∧ (next s e).executions = s.executions ∧
      DistinctDests e := by
    cases e with
    | select planned => simpa [next, offered, DistinctDests, looksUp, hinflight] using hlooks
    | check =>
      cases hholder : s.holder with
      | none => simp [looksUp, hholder] at hlooks
      | some holder =>
        cases holder with
        | explicit d' =>
          by_cases hd' : d' = ""
          · simp [looksUp, hholder, hd'] at hlooks
          · obtain rfl : d = d' := by simpa [looksUp, hholder, hd'] using hlooks
            simp [next, hholder, hd', hinflight, offered, DistinctDests]
        | _ => simp [looksUp, hholder] at hlooks
    | _ => simp [looksUp] at hlooks
  obtain ⟨hoffered, hsame, hdistinct⟩ := hoffers
  obtain ⟨e', he', hdistinct', hstarted⟩ := start_offered hoffered
  obtain ⟨i, hi⟩ : ∃ i : ℕ, s.executions[i]? = some (⟨d, .spawned⟩ : Execution) := by
    unfold Registered at hmissed
    push Not at hmissed
    obtain ⟨⟨d', p⟩, hmem, rfl, rfl⟩ := hmissed
    exact List.getElem?_of_mem hmem
  have hlt := (List.getElem?_eq_some_iff.mp hi).1
  rw [hsame] at hstarted
  have hboth := register_both (s := next (next s e) e') (i := i) (j := s.executions.length)
    (d := d) (by omega) (by rw [hstarted, List.getElem?_append_left hlt]; exact hi)
    (by rw [hstarted]; simp)
  exact ⟨e' :: [.register i, .register s.executions.length],
    ⟨he, hdistinct, he', hdistinct', hboth.1⟩, hboth.2⟩

def leftBehind : State :=
  engine.run initial [.beginCycle, .select ["1x1x1"], .spawn ["1x1x1"], .expire, .beginCycle]

theorem leftBehind_breaks : ∃ es, engine.Follows (fun _ e => DistinctDests e) leftBehind es ∧
    ¬ Exclusive (engine.run leftBehind es) := by
  obtain ⟨es, h⟩ := uncovered_breaks (s := leftBehind) (e := .select ["1x1x1"]) (d := "1x1x1")
    (by decide) (by decide) (by decide) (by decide)
  exact ⟨_, h⟩

/-- The ceiling expires only after every worker registered or gave up, and no empty
id is planned. -/
def Patient (s : State) : Event → Prop
  | .expire => ∀ e ∈ s.executions, e.phase ≠ .spawned
  | .select planned => "" ∉ planned
  | _ => True

def owned : Option Holder → List ℕ
  | some (.collecting workers) => workers
  | some (.executing i) => [i]
  | _ => []

def SpawnedOwned (s : State) : Prop := ∀ i, atPhase s i .spawned → i ∈ owned s.holder

theorem atPhase_setPhase {s : State} {i j : ℕ} {p : Phase} (hp : p ≠ .spawned)
    {holder : Option Holder} {inflight : List String}
    (h : atPhase ⟨holder, inflight, setPhase s i p⟩ j .spawned) : atPhase s j .spawned := by
  obtain ⟨d, hd⟩ := atPhase_iff.mp h
  apply atPhase_iff.mpr
  cases hi : s.executions[i]? with
  | none => exact ⟨d, by simpa [setPhase, hi] using hd⟩
  | some e =>
    simp only [setPhase, hi] at hd
    by_cases hij : i = j
    · subst hij
      rw [List.getElem?_set_self (List.getElem?_eq_some_iff.mp hi).1] at hd
      simp [hp] at hd
    · exact ⟨d, by rwa [List.getElem?_set_ne hij] at hd⟩

/-- A cycle or an explicit execution lets go of the lock when its own executions are past it. -/
theorem spawnedOwned_released {s : State} (hs : SpawnedOwned s)
    (hpast : ∀ i ∈ owned s.holder, ¬ atPhase s i .spawned) (holder : Option Holder) :
    SpawnedOwned { s with holder := holder } :=
  fun i hi => absurd hi (hpast i (hs i hi))

theorem spawnedOwned_started {s : State} (hs : SpawnedOwned s) (hnone : owned s.holder = [])
    {dests : List String} {holder : Option Holder}
    (howned : ∀ k < dests.length, s.executions.length + k ∈ owned holder) :
    SpawnedOwned ⟨holder, s.inflight, s.executions ++ dests.map fun d => ⟨d, .spawned⟩⟩ := by
  intro i hi
  obtain ⟨d, hd⟩ := atPhase_iff.mp hi
  by_cases hlt : i < s.executions.length
  · have := hs i (atPhase_iff.mpr ⟨d, by rwa [List.getElem?_append_left hlt] at hd⟩)
    simp [hnone] at this
  · have hlen := (List.getElem?_eq_some_iff.mp hd).1
    simp only [List.length_append, List.length_map] at hlen
    have := howned (i - s.executions.length) (by omega)
    rwa [show s.executions.length + (i - s.executions.length) = i by omega] at this

theorem not_spawned_of_ended {s : State} {i : ℕ} (h : atPhase s i .ended) :
    ¬ atPhase s i .spawned := by
  intro k
  obtain ⟨_, hd⟩ := atPhase_iff.mp h
  obtain ⟨_, hd'⟩ := atPhase_iff.mp k
  simp [hd] at hd'

theorem mayRelease_past {s : State} (h : mayRelease s s.holder = true) :
    ∀ i ∈ owned s.holder, ¬ atPhase s i .spawned := by
  intro i hi
  cases hholder : s.holder with
  | none => simp [hholder, owned] at hi
  | some holder =>
    rw [hholder] at h hi
    cases holder with
    | collecting workers =>
      exact not_spawned_of_ended (of_decide_eq_true (List.all_eq_true.mp h i hi))
    | executing j =>
      obtain rfl : i = j := by simpa [owned] using hi
      exact not_spawned_of_ended (of_decide_eq_true h)
    | cycle | selected | explicit | cleared => simp [owned] at hi

theorem step_spawnedOwned {s : State} {e : Event} (hs : SpawnedOwned s) (he : Enabled s e)
    (hpatient : Patient s e) : SpawnedOwned (next s e) := by
  cases e with
  | beginCycle =>
    change s.holder = none at he
    exact spawnedOwned_released hs (by simp [he, owned]) _
  | select planned =>
    change s.holder = some .cycle at he
    exact spawnedOwned_released hs (by simp [he, owned]) _
  | spawn dests =>
    refine spawnedOwned_started hs ?_ fun k hk => ?_
    · change maySpawn dests s.holder = true at he
      unfold maySpawn at he
      split at he
      · rename_i hholder
        rw [hholder]
        rfl
      · cases he
    · simp only [owned, List.mem_range'_1]
      omega
  | beginExplicit dest =>
    change s.holder = none at he
    exact spawnedOwned_released hs (by simp [he, owned]) _
  | check =>
    unfold next
    dsimp only
    split
    · rename_i hholder
      exact spawnedOwned_released hs (by simp [hholder, owned]) _
    · exact hs
  | execute =>
    unfold next
    dsimp only
    split
    · rename_i d hholder
      refine @spawnedOwned_started _ hs (by simp [hholder, owned]) [d] _ fun k hk => ?_
      obtain rfl : k = 0 := by simpa using hk
      simp [owned]
    · exact hs
  | block i => exact fun j hj => hs j (atPhase_setPhase (by simp) hj)
  | register i => exact fun j hj => hs j (atPhase_setPhase (by simp) hj)
  | unregister i => exact fun j hj => hs j (atPhase_setPhase (by simp) hj)
  | release => exact spawnedOwned_released hs (mayRelease_past he) _
  | expire =>
    refine spawnedOwned_released hs (fun i _ hi => ?_) _
    obtain ⟨d, hd⟩ := atPhase_iff.mp hi
    exact hpatient _ (List.mem_of_getElem? hd) rfl

/-- At a snapshot the holder owns no execution yet, so none is unregistered. -/
theorem covers_of_patient {s : State} {e : Event} (hs : SpawnedOwned s) (he : Enabled s e)
    (hpatient : Patient s e) : SnapshotCovers s e := by
  have hregistered : owned s.holder = [] → ∀ d, Registered s d := by
    rintro hnone d ⟨d', p⟩ hmem rfl rfl
    obtain ⟨i, hi⟩ := List.getElem?_of_mem hmem
    have := hs i (atPhase_iff.mpr ⟨d', hi⟩)
    simp [hnone] at this
  intro d hd _
  cases e with
  | select planned =>
    change s.holder = some .cycle at he
    refine ⟨?_, hregistered (by simp [he, owned]) d⟩
    rintro rfl
    exact hpatient hd
  | check =>
    change isExplicit s.holder = true at he
    unfold isExplicit at he
    split at he
    · rename_i d' hholder
      by_cases hd' : d' = ""
      · simp [looksUp, hholder, hd'] at hd
      · obtain rfl : d = d' := by simpa [looksUp, hholder, hd'] using hd
        exact ⟨hd', hregistered (by simp [hholder, owned]) d⟩
    · cases he
  | _ => simp [looksUp] at hd

/-- A ceiling that never expires over an unregistered worker is enough. -/
theorem covered_of_patient {es : List Event}
    (h : engine.Follows (fun s e => DistinctDests e ∧ Patient s e) initial es) :
    engine.Follows (fun s e => DistinctDests e ∧ SnapshotCovers s e) initial es :=
  h.strengthen (I := SpawnedOwned) (by simp [SpawnedOwned, atPhase, initial])
    (fun _ _ hs he hP => step_spawnedOwned hs he hP.2)
    fun _ _ hs he hP => ⟨hP.1, covers_of_patient hs he hP.2⟩

section Exclusion

/-- One payment window per destination, in every run whose snapshots cover the executions that
were spawned before them. -/
theorem exclusive_of_covered {es : List Event}
    (h : engine.Follows (fun s e => DistinctDests e ∧ SnapshotCovers s e) initial es) :
    Exclusive (engine.run initial es) :=
  (h.invariant initial_invariant fun _ _ hs he hP =>
    step_invariant hs he hP.1 hP.2).exclusive

/-- A registered worker is left behind; the next cycle takes another destination. -/
theorem registered_worker_excludes :
    engine.Follows (fun s e => DistinctDests e ∧ SnapshotCovers s e) initial
        [.beginCycle, .select ["1x1x1"], .spawn ["1x1x1"], .register 0, .expire, .beginCycle,
          .select ["1x1x1", "2x2x2"], .spawn ["2x2x2"], .register 1] ∧
      Exclusive (engine.run initial
        [.beginCycle, .select ["1x1x1"], .spawn ["1x1x1"], .register 0, .expire, .beginCycle,
          .select ["1x1x1", "2x2x2"], .spawn ["2x2x2"], .register 1]) := by
  have h : engine.Follows (fun s e => DistinctDests e ∧ SnapshotCovers s e) initial
      [.beginCycle, .select ["1x1x1"], .spawn ["1x1x1"], .register 0, .expire, .beginCycle,
        .select ["1x1x1", "2x2x2"], .spawn ["2x2x2"], .register 1] := by decide
  exact ⟨h, exclusive_of_covered h⟩

/-- The ceiling lets a cycle go before its worker registers, and the next cycle selects the same
destination. -/
theorem abandoned_worker_pays_twice :
    engine.Follows (fun _ e => DistinctDests e) initial
        [.beginCycle, .select ["1x1x1"], .spawn ["1x1x1"], .expire, .beginCycle,
          .select ["1x1x1"], .spawn ["1x1x1"], .register 0, .register 1] ∧
      ¬ Exclusive (engine.run initial
        [.beginCycle, .select ["1x1x1"], .spawn ["1x1x1"], .expire, .beginCycle,
          .select ["1x1x1"], .spawn ["1x1x1"], .register 0, .register 1]) := by
  refine ⟨by decide, fun h => ?_⟩
  exact h 0 1 ⟨"1x1x1", .paying⟩ ⟨"1x1x1", .paying⟩ (by decide) (by decide) (by decide) rfl rfl rfl

end Exclusion

end PaymentWindow
