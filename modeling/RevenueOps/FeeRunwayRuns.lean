import Mathlib.Data.List.Induction
import RevenueOps.FeeRunwayWrites

/-! Runs of cycle commits and seed refusals on an empty store. What such a run wrote is a history
of facts, and the tables are a function of the history, whatever failed in between. -/
namespace FeeRunway

open FallibleState SqlTransaction KeyedTable FeeTables

section Calls

inductive RunwayCall where
  | commitFeeCycle (commit : FeeCycleCommit)
  | commitFeeCycleGuarded (commit : FeeCycleCommit) (expectedPriorGeneration : ℕ)
  | recordSeedRefusal (ev : FeeSeedEventRow)

abbrev RunwayCall.Result : RunwayCall → Type
  | commitFeeCycleGuarded _ _ => GuardedCommitOutcome
  | _ => ℕ

def RunwayCall.run : (c : RunwayCall) → Runway c.Result
  | commitFeeCycle commit => FeeRunway.commitFeeCycle commit
  | commitFeeCycleGuarded commit expectedPriorGeneration =>
    FeeRunway.commitFeeCycleGuarded commit expectedPriorGeneration
  | recordSeedRefusal ev => FeeRunway.recordSeedRefusal ev

inductive Fact where
  | committed (commit : FeeCycleCommit)
  | refused (ev : FeeSeedEventRow)

def RunwayCall.fact : (c : RunwayCall) → Outcome RunwayError c.Result → Option Fact
  | commitFeeCycle commit, .ok _ => some (.committed commit)
  | commitFeeCycleGuarded commit _, .ok (.committed _) => some (.committed commit)
  | recordSeedRefusal ev, .ok _ => some (.refused ev)
  | _, _ => none

/-- The facts of a run of calls, each under failures of its own, and the tables at its end. -/
inductive Run : List Fact → FeeTables → Prop where
  | empty : Run [] .empty
  | call {facts : List Fact} {t : FeeTables} (h : Run facts t) (c : RunwayCall)
      (faults : List (Option Fault)) :
      Run (facts ++ (c.fact (call c.run faults t).1).toList) (call c.run faults t).2

end Calls

section History

variable {facts : List Fact} {commits : List FeeCycleCommit} {commit : FeeCycleCommit}

def Fact.commit? : Fact → Option FeeCycleCommit
  | committed commit => some commit
  | refused _ => none

def commitsOf (facts : List Fact) : List FeeCycleCommit := facts.filterMap Fact.commit?

/-- The row of a channel that a commit leaves: the last one it carries. -/
def FeeCycleCommit.lastRow (commit : FeeCycleCommit) (channelId : String) : Option FeeStateRow :=
  commit.stateRows.reverse.find? fun row => row.channelId = channelId

/-- The row and the generation of the last commit that contains the channel. -/
def lastState (commits : List FeeCycleCommit) (channelId : String) : Option StateRecord :=
  commits.zipIdx.reverse.findSome? fun p =>
    (p.1.lastRow channelId).map fun row => ⟨row, p.2 + 1⟩

/-- The rows of rust_fee_cycles, the n-th commit at generation n. -/
def cycleRows (commits : List FeeCycleCommit) : List CycleRecord :=
  commits.mapIdx fun i commit => commit.cycleRecord (i + 1)

/-- A seed event without its row id: the event, and the cycle and generation it is bound to. -/
abbrev SeedLine := FeeSeedEventRow × Option String × Option ℤ

def SeedRecord.line (r : SeedRecord) : SeedLine := (r.row, r.boundCycleId, r.boundGeneration)

def Fact.seedLine : Fact → Option SeedLine
  | committed commit => commit.pendingSeed.map fun ev => (ev, some commit.cycleId, some 1)
  | refused ev => some (ev, none, none)

def Fact.Admissible : Fact → Prop
  | committed commit => ∀ ev, commit.pendingSeed = some ev → ev.outcome = "seeded"
  | refused ev => ev.outcome = "seed_refused"

@[simp] theorem commitsOf_append {more : List Fact} :
    commitsOf (facts ++ more) = commitsOf facts ++ commitsOf more := List.filterMap_append ..

@[simp] theorem cycleRows_snoc : cycleRows (commits ++ [commit]) =
    cycleRows commits ++ [commit.cycleRecord (commits.length + 1)] := by
  simp [cycleRows, List.mapIdx_append]

theorem lastState_snoc {channelId : String} : lastState (commits ++ [commit]) channelId =
    ((commit.lastRow channelId).map fun row => ⟨row, commits.length + 1⟩).or
      (lastState commits channelId) := by
  simp only [lastState, List.zipIdx_append, List.reverse_append, List.findSome?_append]
  simp

theorem lastRow_snoc {rows : List FeeStateRow} {row : FeeStateRow} {channelId : String} :
    (rows ++ [row]).reverse.find? (fun row => row.channelId = channelId) =
      if row.channelId = channelId then some row
      else rows.reverse.find? fun row => row.channelId = channelId := by
  rw [List.reverse_append, List.reverse_singleton, List.singleton_append, List.find?_cons]
  by_cases h : row.channelId = channelId <;> simp [h]

theorem find_writeStates {generation : ℤ} {rows : List FeeStateRow} {channelId : String}
    {states : Table StateRecord String StateRecord.channelId} :
    (writeStates generation rows states).find? channelId =
      ((rows.reverse.find? fun row => row.channelId = channelId).map fun row =>
        ⟨row, generation⟩).or (states.find? channelId) := by
  induction rows using List.reverseRecOn with
  | nil => rfl
  | append_singleton rows row ih =>
    rw [lastRow_snoc]
    simp only [writeStates, List.foldl_append, List.foldl_cons, List.foldl_nil,
      find_insertOrReplace]
    by_cases h : row.channelId = channelId
    · simp [h, StateRecord.channelId]
    · simp only [StateRecord.channelId, if_neg h]
      exact (if_neg h).trans ih

end History

section Invariant

variable {facts : List Fact} {t u : FeeTables} {f : Fact}

structure Represents (facts : List Fact) (t : FeeTables) : Prop where
  generation : t.currentGeneration = (commitsOf facts).length
  cycles : t.cycles.rows = cycleRows (commitsOf facts)
  states : ∀ channelId, t.states.find? channelId = lastState (commitsOf facts) channelId
  seeds : t.seeds.rows.map SeedRecord.line = facts.filterMap Fact.seedLine
  ordered : t.seeds.rows.Pairwise fun a b => a.id < b.id
  admissible : ∀ f ∈ facts, f.Admissible
  first : ∀ before commit after, facts = before ++ .committed commit :: after →
    commit.pendingSeed ≠ none → commitsOf before = []

def Fact.Applies (t : FeeTables) : Fact → FeeTables → Prop
  | committed commit, u => ∃ generation, Committed commit t generation u
  | refused ev, u => ev.outcome = "seed_refused" ∧ t.insertSeed ev none none = some u

theorem ordered_snoc (h : t.seeds.rows.Pairwise fun a b => a.id < b.id) {r : SeedRecord}
    (hr : r.id = t.seeds.nextKey) : (t.seeds.rows ++ [r]).Pairwise fun a b => a.id < b.id := by
  rw [List.pairwise_append]
  refine ⟨h, List.pairwise_singleton _ _, fun a ha b hb => ?_⟩
  rw [List.mem_singleton.mp hb, hr]
  exact lt_nextKey ha

theorem Represents.admissible_snoc (h : Represents facts t) (hf : f.Admissible) :
    ∀ g ∈ facts ++ [f], g.Admissible := by
  intro g hg
  rcases List.mem_append.mp hg with hg | hg
  · exact h.admissible g hg
  · rw [List.mem_singleton.mp hg]
    exact hf

/-- A pending seed is in the first commit of the history, also after one more fact. -/
theorem Represents.first_snoc (h : Represents facts t)
    (hf : ∀ commit, f = .committed commit → commit.pendingSeed ≠ none → commitsOf facts = []) :
    ∀ before commit after, facts ++ [f] = before ++ .committed commit :: after →
      commit.pendingSeed ≠ none → commitsOf before = [] := by
  intro before commit after hsplit hpending
  rcases List.eq_nil_or_concat after with rfl | ⟨init, last, rfl⟩
  · obtain ⟨rfl, hlast⟩ := List.append_inj' hsplit rfl
    exact hf commit (List.singleton_inj.mp hlast) hpending
  · rw [List.concat_eq_append, ← List.cons_append, ← List.append_assoc] at hsplit
    exact h.first before commit init (List.append_inj' hsplit rfl).1 hpending

theorem Represents.refused (h : Represents facts t) {ev : FeeSeedEventRow}
    (hev : ev.outcome = "seed_refused") (hu : t.insertSeed ev none none = some u) :
    Represents (facts ++ [.refused ev]) u := by
  obtain ⟨-, hframe, hrows⟩ := insertSeed_eq hu
  have hcommits : commitsOf (facts ++ [.refused ev]) = commitsOf facts := by
    simp [commitsOf, Fact.commit?]
  constructor
  · rw [hcommits, hframe]
    exact h.generation
  · rw [hcommits, hframe]
    exact h.cycles
  · rw [hcommits, hframe]
    exact h.states
  · rw [hrows, List.map_append, h.seeds, List.filterMap_append]
    rfl
  · rw [hrows]
    exact ordered_snoc h.ordered rfl
  · exact h.admissible_snoc hev
  · exact h.first_snoc fun commit hc => by cases hc

theorem Represents.committed (h : Represents facts t) {commit : FeeCycleCommit} {generation : ℤ}
    (hc : Committed commit t generation u) : Represents (facts ++ [.committed commit]) u := by
  have hcommits : commitsOf (facts ++ [.committed commit]) = commitsOf facts ++ [commit] := by
    simp [commitsOf, Fact.commit?]
  have hgeneration : generation = (commitsOf facts).length + 1 := by
    rw [hc.next, h.generation]
  have hseeds := hc.seeds
  unfold SeedsAfter at hseeds
  constructor
  · rw [hcommits, FeeTables.currentGeneration, hc.stored]
    simp [hgeneration]
  · rw [hcommits, cycleRows_snoc, (insert_eq_some.mp hc.cycles).2, h.cycles, hgeneration]
  · intro channelId
    rw [hcommits, lastState_snoc, hc.states, find_writeStates, h.states, hgeneration]
    rfl
  · rw [List.filterMap_append]
    cases hpending : commit.pendingSeed with
    | none =>
      rw [hpending] at hseeds
      rw [hseeds, h.seeds]
      simp [Fact.seedLine, hpending]
    | some ev =>
      rw [hpending] at hseeds
      rw [hseeds.2.2.2, List.map_append, h.seeds]
      simp [Fact.seedLine, hpending, SeedRecord.line]
  · cases hpending : commit.pendingSeed with
    | none =>
      rw [hpending] at hseeds
      rw [hseeds]
      exact h.ordered
    | some ev =>
      rw [hpending] at hseeds
      rw [hseeds.2.2.2]
      exact ordered_snoc h.ordered rfl
  · refine h.admissible_snoc fun ev hpending => ?_
    rw [hpending] at hseeds
    exact hseeds.1
  · refine h.first_snoc fun other hother hpending => ?_
    cases hother
    obtain ⟨ev, hev⟩ := Option.ne_none_iff_exists'.mp hpending
    rw [hev] at hseeds
    have hlength := h.generation
    rw [hseeds.2.1] at hlength
    exact List.eq_nil_of_length_eq_zero (by omega)

theorem represents_empty : Represents [] .empty := by
  constructor
  · rfl
  · rfl
  · exact fun _ => rfl
  · rfl
  · exact List.Pairwise.nil
  · exact fun _ hf => absurd hf List.not_mem_nil
  · intro before commit after h
    simp at h

end Invariant

section Runs

variable {facts : List Fact} {t u : FeeTables} {conn : Connection FeeTables}

theorem commitGuarded_atomic {commit : FeeCycleCommit} {expected : ℕ} (hdb : conn.db = t)
    (htx : conn.tx = none) :
    wp (commitFeeCycleGuarded commit expected) (Atomic t fun outcome u =>
      (∃ n, outcome = .committed n.toNat ∧ Committed commit t n u ∧
        t.currentGeneration.toNat = expected) ∨
      (outcome = .generationConflict expected t.currentGeneration.toNat ∧ u = t)) conn := by
  refine atomic_begin hdb htx fun d hd hx => ?_
  have hread : wp currentStateGeneration
      (Inside t fun found u => found = t.currentGeneration.toNat ∧ u = t) d := by
    refine inside_bind (select_inside hd hx) ?_
    rintro generation v e ⟨rfl, rfl⟩ he hex
    exact inside_pure he hex ⟨rfl, rfl⟩
  refine atomic_attempt hread ?_ ?_
  · rintro found v e ⟨rfl, rfl⟩ he hex
    dsimp only
    rw [wp_ite]
    constructor
    · intro _
      exact atomic_rollbackQuietly he fun e' he' hex' => atomic_pure he' hex' (.inr ⟨rfl, rfl⟩)
    · intro hsame
      rw [wp_bind]
      refine wp_mono (commitLocked_atomic he hex) ?_ (fun _ _ h => h) fun _ h => h
      rintro generation e' ⟨hx', n, hcommitted, rfl⟩
      exact (wp_pure ..).mpr ⟨hx', .inl ⟨n, rfl, hcommitted, not_ne_iff.mp hsame⟩⟩
  · intro e d' hd'
    exact atomic_rollbackQuietly hd' fun d'' hdb' htx' => atomic_throw hdb' htx'

theorem recordSeedRefusal_atomic {ev : FeeSeedEventRow} (hdb : conn.db = t)
    (htx : conn.tx = none) : wp (recordSeedRefusal ev) (Atomic t fun _ u =>
      (Fact.refused ev).Applies t u) conn := by
  unfold recordSeedRefusal
  rw [wp_ite]
  refine ⟨fun _ => atomic_throw hdb htx, fun hrefused => ?_⟩
  refine wp_mono (executeInsert_atomic hdb htx) ?_ (fun _ _ h => h) fun _ h => h
  rintro id d ⟨hx, -, hu⟩
  exact ⟨hx, not_ne_iff.mp hrefused, hu⟩

theorem call_applies (c : RunwayCall) (faults : List (Option Fault)) (t : FeeTables) :
    (∃ f, c.fact (call c.run faults t).1 = some f ∧ f.Applies t (call c.run faults t).2) ∨
      (c.fact (call c.run faults t).1 = none ∧ (call c.run faults t).2 = t) := by
  have hnone : (∀ a, (call c.run faults t).1 ≠ .ok a) → c.fact (call c.run faults t).1 = none := by
    intro hnot
    cases hr : (call c.run faults t).1 with
    | ok a => exact absurd hr (hnot a)
    | err e => cases c <;> rfl
    | panic => cases c <;> rfl
  cases c with
  | commitFeeCycle commit =>
    rcases call_atomic faults (@commitFeeCycle_atomic t _ commit rfl rfl) with
      ⟨a, ha, n, hcommitted, -⟩ | ⟨hnot, hsame⟩
    · left
      exact ⟨.committed commit, by rw [RunwayCall.run, ha]; rfl, n, hcommitted⟩
    · exact .inr ⟨hnone hnot, hsame⟩
  | commitFeeCycleGuarded commit expected =>
    rcases call_atomic faults (@commitGuarded_atomic t _ commit expected rfl rfl) with
      ⟨a, ha, ⟨n, rfl, hcommitted, -⟩ | ⟨rfl, hsame⟩⟩ | ⟨hnot, hsame⟩
    · left
      exact ⟨.committed commit, by rw [RunwayCall.run, ha]; rfl, n, hcommitted⟩
    · right
      exact ⟨by rw [RunwayCall.run, ha]; rfl, hsame⟩
    · exact .inr ⟨hnone hnot, hsame⟩
  | recordSeedRefusal ev =>
    rcases call_atomic faults (@recordSeedRefusal_atomic t _ ev rfl rfl) with
      ⟨a, ha, happlies⟩ | ⟨hnot, hsame⟩
    · left
      exact ⟨.refused ev, by rw [RunwayCall.run, ha]; rfl, happlies⟩
    · exact .inr ⟨hnone hnot, hsame⟩

theorem Represents.applies (h : Represents facts t) {f : Fact} (hf : f.Applies t u) :
    Represents (facts ++ [f]) u := by
  cases f with
  | committed commit =>
    obtain ⟨generation, hcommitted⟩ := hf
    exact h.committed hcommitted
  | refused ev => exact h.refused hf.1 hf.2

theorem Run.represents (h : Run facts t) : Represents facts t := by
  induction h with
  | empty => exact represents_empty
  | call _ c faults ih =>
    rename_i facts t _
    rcases call_applies c faults t with ⟨f, hf, happlies⟩ | ⟨hnone, hsame⟩
    · rw [hf]
      exact ih.applies happlies
    · rw [hnone, hsame]
      simpa using ih

end Runs

section Binding

variable {facts : List Fact} {t : FeeTables} {conn : Connection FeeTables} {cycleId : String}

def FeeTables.seededRows (t : FeeTables) : List SeedRecord :=
  (t.seeds.rows.filter SeedRecord.seeded).insertionSort fun a b => a.id ≤ b.id

structure BoundRow (t : FeeTables) (cycleId : String) (success : SeedRecord) : Prop where
  later : t.seeds.rows.countP (fun r => r.refused && success.id < r.id) = 0
  cycle : success.boundCycleId = some cycleId
  generation : success.boundGeneration = some 1
  found : (t.cycles.find? cycleId).map CycleRecord.generation = some 1

def Bound (t : FeeTables) (cycleId : String) : Prop :=
  t.currentGeneration.toNat ≠ 0 ∧ ∃ success, t.seededRows = [success] ∧ BoundRow t cycleId success

/-- A verdict that binds nothing, where the row cannot be bound. -/
theorem unbound_atomic {b : SeedBindingState} {P : String → Prop} (hdb : conn.db = t)
    (htx : conn.tx = none) (hb : ∀ cycleId, b ≠ .verifiedBound cycleId)
    (hP : ∀ cycleId, ¬ P cycleId) :
    wp (Pure.pure b : Runway SeedBindingState) (Atomic t fun binding u => u = t ∧
      ∀ cycleId, binding = .verifiedBound cycleId ↔ P cycleId) conn :=
  (wp_pure ..).mpr ⟨htx, hdb, fun cycleId =>
    ⟨fun h => absurd h (hb cycleId), fun h => absurd h (hP cycleId)⟩⟩

theorem boundSeed_atomic {success : SeedRecord} (hdb : conn.db = t) (htx : conn.tx = none) :
    wp (boundSeed success) (Atomic t fun binding u => u = t ∧
      ∀ cycleId, binding = .verifiedBound cycleId ↔ BoundRow t cycleId success) conn := by
  refine atomic_read (select_atomic hdb htx) fun d hd hx => ?_
  rw [wp_ite]
  refine ⟨fun hlater => unbound_atomic hd hx (by simp) fun cycleId h => ?_, fun hlater => ?_⟩
  · have hnone := h.later
    omega
  have hnone : t.seeds.rows.countP (fun r => r.refused && success.id < r.id) = 0 := by omega
  cases hcycle : success.boundCycleId with
  | none => exact unbound_atomic hd hx (by simp) fun cycleId h => by simp [h.cycle] at hcycle
  | some id =>
    cases hgeneration : success.boundGeneration with
    | none =>
      exact unbound_atomic hd hx (by simp) fun cycleId h => by simp [h.generation] at hgeneration
    | some n =>
      dsimp only
      rw [wp_ite]
      refine ⟨fun hne => unbound_atomic hd hx (by simp) fun cycleId h => ?_, fun hone => ?_⟩
      · rw [h.generation, Option.some.injEq] at hgeneration
        exact hne hgeneration.symm
      rw [not_ne_iff] at hone
      subst hone
      refine atomic_read (select_atomic hd hx) fun d' hd' hx' => ?_
      by_cases hfound : (t.cycles.find? id).map CycleRecord.generation = some 1
      · rw [hfound]
        refine (wp_pure ..).mpr ⟨hx', hd', fun cycleId => ⟨fun h => ?_, fun h => ?_⟩⟩
        · cases h
          exact ⟨hnone, hcycle, hgeneration, hfound⟩
        · have hid := h.cycle
          rw [hcycle, Option.some.injEq] at hid
          rw [hid]
      · have hnot : ∀ cycleId, ¬ BoundRow t cycleId success := by
          intro cycleId h
          have hid := h.cycle
          rw [hcycle, Option.some.injEq] at hid
          exact hfound (hid ▸ h.found)
        split
        · rename_i hone
          exact absurd hone hfound
        · exact unbound_atomic hd' hx' (by simp) hnot
        · exact unbound_atomic hd' hx' (by simp) hnot

theorem verifiedSeedBinding_atomic (hdb : conn.db = t) (htx : conn.tx = none) :
    wp verifiedSeedBinding (Atomic t fun binding u => u = t ∧
      ∀ cycleId, binding = .verifiedBound cycleId ↔ Bound t cycleId) conn := by
  refine atomic_read (currentStateGeneration_atomic hdb htx) fun d hd hx => ?_
  refine atomic_read (select_atomic hd hx) fun d' hd' hx' => ?_
  rw [wp_ite]
  constructor
  · intro hzero
    have hnot : ∀ cycleId, ¬ Bound t cycleId := fun cycleId h => h.1 hzero
    rw [wp_ite]
    exact ⟨fun _ => unbound_atomic hd' hx' (by simp) hnot,
      fun _ => unbound_atomic hd' hx' (by simp) hnot⟩
  · intro hpos
    rcases hrows : t.seededRows with _ | ⟨success, _ | ⟨other, rest⟩⟩
    · have hnot : ∀ cycleId, ¬ Bound t cycleId := by
        rintro cycleId ⟨-, success, hsuccess, -⟩
        rw [hrows] at hsuccess
        cases hsuccess
      unfold FeeTables.seededRows at hrows
      rw [hrows]
      exact unbound_atomic hd' hx' (by simp) hnot
    · have hiff : ∀ cycleId, Bound t cycleId ↔ BoundRow t cycleId success := by
        intro cycleId
        unfold Bound
        rw [hrows]
        simp [hpos]
      unfold FeeTables.seededRows at hrows
      rw [hrows]
      refine wp_mono (boundSeed_atomic hd' hx') ?_ (fun _ _ h => h) fun _ h => h
      rintro binding e ⟨hx, hdb, hbinding⟩
      exact ⟨hx, hdb, fun cycleId => (hbinding cycleId).trans (hiff cycleId).symm⟩
    · have hnot : ∀ cycleId, ¬ Bound t cycleId := by
        rintro cycleId ⟨-, only, honly, -⟩
        rw [hrows] at honly
        cases honly
      unfold FeeTables.seededRows at hrows
      rw [hrows]
      exact unbound_atomic hd' hx' (by simp) hnot

/-- The first commit of the history carried a seed, and no refusal was recorded after it. -/
def SeedBound (facts : List Fact) (cycleId : String) : Prop :=
  ∃ before commit after, facts = before ++ .committed commit :: after ∧ commitsOf before = [] ∧
    commit.pendingSeed ≠ none ∧ (∀ ev, .refused ev ∉ after) ∧ cycleId = commit.cycleId

/-- Where a fact left a seed row, with the rows of what came before and after it. -/
theorem Represents.split (h : Represents facts t) {before after : List Fact} {f : Fact}
    {line : SeedLine} (hfacts : facts = before ++ f :: after) (hf : f.seedLine = some line) :
    ∃ earlier r later, t.seeds.rows = earlier ++ r :: later ∧ r.line = line ∧
      earlier.map SeedRecord.line = before.filterMap Fact.seedLine ∧
      later.map SeedRecord.line = after.filterMap Fact.seedLine ∧
      (∀ q ∈ earlier, q.id < r.id) ∧ ∀ q ∈ later, r.id < q.id := by
  have hlines := h.seeds
  rw [hfacts, List.filterMap_append, List.filterMap_cons_some hf] at hlines
  obtain ⟨earlier, rest, hrows, hearlier, hrest⟩ := List.map_eq_append_iff.mp hlines
  obtain ⟨r, later, rfl, hr, hlater⟩ := List.map_eq_cons_iff.mp hrest
  have hordered := h.ordered
  rw [hrows, List.pairwise_append] at hordered
  exact ⟨earlier, r, later, hrows, hr, hearlier, hlater,
    fun q hq => hordered.2.2 q hq r List.mem_cons_self, (List.pairwise_cons.mp hordered.2.1).1⟩

theorem seedLine_seeded {f : Fact} (hf : f.Admissible) {line : SeedLine}
    (hline : f.seedLine = some line) (hseeded : line.1.outcome = "seeded") :
    ∃ commit ev, f = .committed commit ∧ commit.pendingSeed = some ev ∧
      line = (ev, some commit.cycleId, some 1) := by
  cases f with
  | committed commit =>
    obtain ⟨ev, hev, rfl⟩ := Option.map_eq_some_iff.mp hline
    exact ⟨commit, ev, rfl, hev, rfl⟩
  | refused ev =>
    cases hline
    rw [hf] at hseeded
    exact absurd hseeded (by decide)

theorem mem_of_line {rows : List SeedRecord} {fs : List Fact}
    (h : rows.map SeedRecord.line = fs.filterMap Fact.seedLine) {r : SeedRecord} (hr : r ∈ rows) :
    ∃ f ∈ fs, f.seedLine = some r.line := by
  have hmem := List.mem_map_of_mem (f := SeedRecord.line) hr
  rw [h] at hmem
  exact List.mem_filterMap.mp hmem

theorem Represents.seeded_row (h : Represents facts t) {r : SeedRecord} (hr : r ∈ t.seeds.rows)
    (hseeded : r.seeded) : ∃ before commit after ev,
      facts = before ++ .committed commit :: after ∧ commitsOf before = [] ∧
      commit.pendingSeed = some ev ∧ r.line = (ev, some commit.cycleId, some 1) := by
  obtain ⟨f, hf, hline⟩ := mem_of_line h.seeds hr
  obtain ⟨commit, ev, rfl, hev, heq⟩ :=
    seedLine_seeded (h.admissible f hf) hline (of_decide_eq_true hseeded)
  obtain ⟨before, after, hfacts⟩ := List.append_of_mem hf
  exact ⟨before, commit, after, ev, hfacts, h.first before commit after hfacts (by simp [hev]), hev,
    heq⟩

theorem line_row {r : SeedRecord} {line : SeedLine} (h : r.line = line) : r.row = line.1 :=
  congrArg Prod.fst h

/-- Among facts without a seed, every row is that of a refusal. -/
theorem refusal_rows {rows : List SeedRecord} {fs : List Fact}
    (hlines : rows.map SeedRecord.line = fs.filterMap Fact.seedLine)
    (hadmissible : ∀ f ∈ fs, f.Admissible)
    (hnone : ∀ commit, .committed commit ∈ fs → commit.pendingSeed = none) :
    ∀ q ∈ rows, q.refused = true ∧ q.seeded = false ∧ ∃ ev, .refused ev ∈ fs := by
  intro q hq
  obtain ⟨f, hf, hline⟩ := mem_of_line hlines hq
  cases f with
  | committed commit => simp [Fact.seedLine, hnone commit hf] at hline
  | refused ev =>
    have houtcome : q.row.outcome = "seed_refused" := by
      rw [line_row (Option.some.inj hline).symm]
      exact hadmissible _ hf
    exact ⟨by simp [SeedRecord.refused, houtcome], by simp [SeedRecord.seeded, houtcome], ev, hf⟩

theorem no_commit_of_commitsOf {fs : List Fact} (h : commitsOf fs = []) {commit : FeeCycleCommit} :
    .committed commit ∉ fs := by
  intro hmem
  have hcommit : commit ∈ commitsOf fs := List.mem_filterMap.mpr ⟨_, hmem, rfl⟩
  rw [h] at hcommit
  cases hcommit

theorem Represents.later_unseeded (h : Represents facts t) {before after : List Fact}
    {commit other : FeeCycleCommit} (hfacts : facts = before ++ .committed commit :: after)
    (hmem : .committed other ∈ after) : other.pendingSeed = none := by
  by_contra hpending
  obtain ⟨mid, rest, rfl⟩ := List.append_of_mem hmem
  have hfirst := h.first (before ++ .committed commit :: mid) other rest (by simp [hfacts]) hpending
  simp [commitsOf, Fact.commit?] at hfirst

/-- After the first commit carried a seed, its row is the only seeded one, and the rows after it
are those of later refusals. -/
theorem Represents.bound_row (h : Represents facts t) {before after : List Fact}
    {commit : FeeCycleCommit} {ev : FeeSeedEventRow}
    (hfacts : facts = before ++ .committed commit :: after) (hbefore : commitsOf before = [])
    (hev : commit.pendingSeed = some ev) : ∃ r, r.line = (ev, some commit.cycleId, some 1) ∧
      t.seededRows = [r] ∧ (t.seeds.rows.countP (fun q => q.refused && r.id < q.id) = 0 ↔
        ∀ ev, .refused ev ∉ after) := by
  have hline : (Fact.committed commit).seedLine = some (ev, some commit.cycleId, some 1) := by
    simp [Fact.seedLine, hev]
  obtain ⟨earlier, r, later, hrows, hr, hearlier, hlater, hless, hmore⟩ := h.split hfacts hline
  have hadmissible := h.admissible
  rw [hfacts] at hadmissible
  have hseeded : r.seeded = true := by
    have houtcome : r.row.outcome = "seeded" := by
      rw [line_row hr]
      exact hadmissible (.committed commit) (by simp) ev hev
    simp [SeedRecord.seeded, houtcome]
  have hold := refusal_rows hearlier (fun f hf => hadmissible f (by simp [hf]))
    fun other hother => absurd hother (no_commit_of_commitsOf hbefore)
  have hnew := refusal_rows hlater (fun f hf => hadmissible f (by simp [hf]))
    fun other hother => h.later_unseeded hfacts hother
  refine ⟨r, hr, ?_, ?_⟩
  · have hfilter : t.seeds.rows.filter SeedRecord.seeded = [r] := by
      rw [hrows, List.filter_append, List.filter_cons_of_pos hseeded,
        List.filter_eq_nil_iff.mpr fun q hq => by simp [(hold q hq).2.1],
        List.filter_eq_nil_iff.mpr fun q hq => by simp [(hnew q hq).2.1]]
      rfl
    unfold FeeTables.seededRows
    rw [hfilter]
    rfl
  · rw [List.countP_eq_zero]
    constructor
    · intro hnone ev' hmem
      have hlines : (ev', none, none) ∈ later.map SeedRecord.line := by
        rw [hlater]
        exact List.mem_filterMap.mpr ⟨_, hmem, rfl⟩
      obtain ⟨q, hq, -⟩ := List.mem_map.mp hlines
      have hcount := hnone q (by simp [hrows, hq])
      simp [(hnew q hq).1, hmore q hq] at hcount
    · intro hnone q hq
      rw [hrows] at hq
      rcases List.mem_append.mp hq with hq | hq
      · have hlt := hless q hq
        simp only [Bool.and_eq_true, decide_eq_true_eq]
        omega
      rcases List.mem_cons.mp hq with rfl | hq
      · simp
      · obtain ⟨-, -, ev', hmem⟩ := hnew q hq
        exact absurd hmem (hnone ev')

theorem Represents.bound_iff (h : Represents facts t) :
    Bound t cycleId ↔ SeedBound facts cycleId := by
  constructor
  · rintro ⟨-, success, hsuccess, hbound⟩
    have hmem : success ∈ t.seededRows := by simp [hsuccess]
    unfold FeeTables.seededRows at hmem
    rw [List.mem_insertionSort, List.mem_filter] at hmem
    obtain ⟨before, commit, after, ev, hfacts, hbefore, hev, hline⟩ := h.seeded_row hmem.1 hmem.2
    obtain ⟨r, hr, hrows, hcount⟩ := h.bound_row hfacts hbefore hev
    rw [hsuccess, List.singleton_inj] at hrows
    subst hrows
    have hid : success.boundCycleId = some commit.cycleId := congrArg (fun l => l.2.1) hline
    rw [hbound.cycle, Option.some.injEq] at hid
    exact ⟨before, commit, after, hfacts, hbefore, by simp [hev], hcount.mp hbound.later, hid⟩
  · rintro ⟨before, commit, after, hfacts, hbefore, hpending, hrefused, rfl⟩
    obtain ⟨ev, hev⟩ := Option.ne_none_iff_exists'.mp hpending
    obtain ⟨r, hr, hrows, hcount⟩ := h.bound_row hfacts hbefore hev
    have hcommits : commitsOf facts = commit :: commitsOf after := by
      rw [hfacts, commitsOf_append, hbefore]
      simp [commitsOf, Fact.commit?]
    refine ⟨?_, r, hrows, hcount.mpr hrefused, congrArg (fun l => l.2.1) hr,
      congrArg (fun l => l.2.2) hr, ?_⟩
    · rw [h.generation, hcommits]
      simp
    · have hfound : t.cycles.find? commit.cycleId = some (commit.cycleRecord 1) := by
        refine find_eq_some_iff.mpr ⟨?_, rfl⟩
        rw [h.cycles, hcommits]
        simp [cycleRows, List.mapIdx_cons]
      rw [hfound]
      rfl

end Binding

section Exactness

variable {facts : List Fact} {t : FeeTables}

theorem Represents.seeded_once (h : Represents facts t) :
    t.seeds.rows.countP SeedRecord.seeded ≤ 1 := by
  have hlength : t.seededRows.length = t.seeds.rows.countP SeedRecord.seeded := by
    rw [FeeTables.seededRows, List.length_insertionSort, ← List.countP_eq_length_filter]
  by_cases hany : ∃ r ∈ t.seeds.rows, r.seeded = true
  · obtain ⟨r, hr, hseeded⟩ := hany
    obtain ⟨before, commit, after, ev, hfacts, hbefore, hev, -⟩ := h.seeded_row hr hseeded
    obtain ⟨q, -, hrows, -⟩ := h.bound_row hfacts hbefore hev
    rw [← hlength, hrows]
    exact le_rfl
  · rw [List.countP_eq_zero.mpr fun r hr hseeded => hany ⟨r, hr, hseeded⟩]
    exact Nat.zero_le 1

def clean (t : FeeTables) : Connection FeeTables := ⟨t, none, []⟩

def Answered {α : Type} (t : FeeTables) : Post (Connection FeeTables) RunwayError α where
  ok _ d := d = clean t
  err _ _ := False
  panic _ := False

theorem answered_read {α β : Type} {m : Runway α} {a : α} {k : α → Runway β}
    (hm : m (clean t) = (.ok a, clean t)) (h : wp (k a) (Answered t) (clean t)) :
    wp (m >>= k) (Answered t) (clean t) := by
  rw [wp_bind]
  unfold wp at h ⊢
  rw [hm]
  exact h

theorem answered_pure {α : Type} {a : α} : wp (Pure.pure a : Runway α) (Answered t) (clean t) :=
  (wp_pure ..).mpr rfl

theorem boundSeed_answered {success : SeedRecord} :
    wp (boundSeed success) (Answered t) (clean t) := by
  refine answered_read (a := t.seeds.rows.countP fun r => r.refused && success.id < r.id) ?_ ?_
  · rfl
  rw [wp_ite]
  refine ⟨fun _ => answered_pure, fun _ => ?_⟩
  cases success.boundCycleId with
  | none => exact answered_pure
  | some cycleId =>
    cases success.boundGeneration with
    | none => exact answered_pure
    | some n =>
      dsimp only
      rw [wp_ite]
      refine ⟨fun _ => answered_pure, fun _ => ?_⟩
      refine answered_read (a := (t.cycles.find? cycleId).map CycleRecord.generation) ?_ ?_
      · rfl
      · split <;> exact answered_pure

theorem verifiedSeedBinding_answered : wp verifiedSeedBinding (Answered t) (clean t) := by
  refine answered_read (a := t.currentGeneration.toNat) ?_ ?_
  · rfl
  refine answered_read (a := t.seededRows) ?_ ?_
  · rfl
  rw [wp_ite]
  constructor
  · intro _
    rw [wp_ite]
    exact ⟨fun _ => answered_pure, fun _ => answered_pure⟩
  · intro _
    split
    · exact answered_pure
    · exact boundSeed_answered
    · exact answered_pure

theorem verifiedSeedBinding_total (t : FeeTables) :
    ∃ verdict, (call verifiedSeedBinding [] t).1 = .ok verdict := by
  have h := @verifiedSeedBinding_answered t
  unfold wp at h
  change ∃ verdict, (verifiedSeedBinding (clean t)).1 = .ok verdict
  rcases hr : verifiedSeedBinding (clean t) with ⟨r, d⟩
  rw [hr] at h
  cases r with
  | ok verdict => exact ⟨verdict, rfl⟩
  | err e => exact h.elim
  | panic => exact h.elim

structure Exact (facts : List Fact) (t : FeeTables) : Prop where
  generation : t.currentGeneration = (commitsOf facts).length
  cycles : t.cycles.rows = cycleRows (commitsOf facts)
  cycleIds : (t.cycles.rows.map CycleRecord.cycleId).Nodup
  states : ∀ channelId, t.states.find? channelId = lastState (commitsOf facts) channelId
  errors : ∀ (c : RunwayCall) faults, (∀ a, (call c.run faults t).1 ≠ .ok a) →
    (call c.run faults t).2 = t
  conflicts : ∀ commit prior faults expected found,
    (call (commitFeeCycleGuarded commit prior) faults t).1 =
      .ok (.generationConflict expected found) →
      (call (commitFeeCycleGuarded commit prior) faults t).2 = t
  guarded : ∀ commit (prior : ℕ) faults generation,
    (call (commitFeeCycleGuarded commit prior) faults t).1 = .ok (.committed generation) →
      t.currentGeneration = prior
  seeded : t.seeds.rows.countP SeedRecord.seeded ≤ 1
  binding : ∀ faults verdict, (call verifiedSeedBinding faults t).1 = .ok verdict →
    ∀ cycleId, verdict = .verifiedBound cycleId ↔ SeedBound facts cycleId
  verdict : ∃ verdict, (call verifiedSeedBinding [] t).1 = .ok verdict

theorem fee_runs_are_exact (h : Run facts t) : Exact facts t := by
  have hrep := h.represents
  constructor
  · exact hrep.generation
  · exact hrep.cycles
  · exact t.cycles.nodup
  · exact hrep.states
  · intro c faults hnot
    rcases call_applies c faults t with ⟨f, hf, -⟩ | ⟨-, hsame⟩
    · cases hr : (call c.run faults t).1 with
      | ok a => exact absurd hr (hnot a)
      | err e => cases c <;> simp [hr, RunwayCall.fact] at hf
      | panic => cases c <;> simp [hr, RunwayCall.fact] at hf
    · exact hsame
  · intro commit prior faults expected found hconflict
    rcases call_applies (.commitFeeCycleGuarded commit prior) faults t with ⟨f, hf, -⟩ | ⟨-, hsame⟩
    · rw [RunwayCall.run, hconflict] at hf
      cases hf
    · exact hsame
  · intro commit prior faults generation hcommitted
    rcases call_atomic faults (@commitGuarded_atomic t _ commit prior rfl rfl) with
      ⟨a, ha, ⟨n, -, -, hprior⟩ | ⟨rfl, -⟩⟩ | ⟨hnot, -⟩
    · have hnonneg : 0 ≤ t.currentGeneration := by
        rw [hrep.generation]
        omega
      omega
    · rw [ha] at hcommitted
      cases hcommitted
    · exact absurd hcommitted (hnot _)
  · exact hrep.seeded_once
  · intro faults verdict hverdict cycleId
    rcases call_atomic faults (@verifiedSeedBinding_atomic t _ rfl rfl) with
      ⟨a, ha, -, hiff⟩ | ⟨hnot, -⟩
    · rw [ha] at hverdict
      cases hverdict
      exact (hiff cycleId).trans hrep.bound_iff
    · exact absurd hverdict (hnot _)
  · exact verifiedSeedBinding_total t

end Exactness

section Example

def seedEvent (outcome : String) : FeeSeedEventRow where
  seededAt := 10
  outcome := outcome
  sourceDbPath := "revenue_ops.db"
  sourceMaxLastUpdate := 9
  rowCount := 1
  payloadSha256 := "p"
  sourceCommit := "s"
  refusedChannel := none
  refusedField := none
  detail := none

def feeState (channelId : String) (lastUpdate : ℤ) : FeeStateRow :=
  ⟨channelId, "\x7b\x7d", lastUpdate⟩

def sampleCommit (cycleId : String) (stateRows : List FeeStateRow)
    (pendingSeed : Option FeeSeedEventRow) : FeeCycleCommit where
  cycleId := cycleId
  startedAt := 100
  completedAt := 101
  sourceCommit := "s"
  binarySha256 := "b"
  stateRows := stateRows
  requests := []
  governor := []
  ledger := []
  outcomes := []
  pendingSeed := pendingSeed
  triggerReceipt := none

def seededCommit : FeeCycleCommit :=
  sampleCommit "c1" [feeState "1x1x1" 100, feeState "2x2x2" 100] (some (seedEvent "seeded"))

def secondCommit : FeeCycleCommit := sampleCommit "c2" [feeState "1x1x1" 200] none

/-- A refusal, the first commit with its seed, a guarded commit against a stale generation, and one
against the stored generation. -/
theorem seeded_run : ∃ facts t, Run facts t ∧
    facts = [.refused (seedEvent "seed_refused"), .committed seededCommit,
      .committed secondCommit] := by
  have hrefused := Run.empty.call (.recordSeedRefusal (seedEvent "seed_refused")) []
  have hfirst := hrefused.call (.commitFeeCycle seededCommit) []
  have hstale := hfirst.call (.commitFeeCycleGuarded secondCommit 0) []
  have hsecond := hstale.call (.commitFeeCycleGuarded secondCommit 1) []
  exact ⟨_, _, hsecond, rfl⟩

/-- One channel has the row of the second commit, the other one still that of the first. -/
theorem seeded_run_is_exact : ∃ facts t, Exact facts t ∧ SeedBound facts "c1" ∧
    commitsOf facts = [seededCommit, secondCommit] ∧
    t.states.find? "1x1x1" = some ⟨feeState "1x1x1" 200, 2⟩ ∧
    t.states.find? "2x2x2" = some ⟨feeState "2x2x2" 100, 1⟩ := by
  obtain ⟨facts, t, hrun, hfacts⟩ := seeded_run
  have hexact := fee_runs_are_exact hrun
  have hbound : SeedBound facts "c1" :=
    ⟨[.refused (seedEvent "seed_refused")], _, _, hfacts, rfl, by simp [seededCommit, sampleCommit],
      by simp, rfl⟩
  have hcommits : commitsOf facts = [seededCommit, secondCommit] := by
    rw [hfacts]
    rfl
  have hstates := hexact.states
  rw [hcommits] at hstates
  exact ⟨facts, t, hexact, hbound, hcommits, hstates "1x1x1", hstates "2x2x2"⟩

end Example

end FeeRunway
