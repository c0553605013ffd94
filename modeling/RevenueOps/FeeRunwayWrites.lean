import RevenueOps.FeeRunway

/-! What each command of the fee runway can do to the committed tables, for every failure of the
database. Later proofs look at these relations and never at a statement or a transaction. -/
namespace FeeRunway

open FallibleState SqlTransaction KeyedTable FeeTables

section Statements

variable {α : Type} {db t : FeeTables} {c : Connection FeeTables} {context : String}
  {f : FeeTables → Option FeeTables} {id : FeeTables → ℕ}

theorem select_inside {g : FeeTables → α} (hdb : c.db = db) (htx : c.tx = some t) :
    wp (select context g) (Inside db fun a u => a = g t ∧ u = t) c := by
  unfold select
  rw [wp_mapErr]
  apply wp_query_tx htx
  · exact fun e d hd => hd.trans hdb
  · intro a d ha hd hx
    cases ha
    exact ⟨hd.trans hdb, t, hx, rfl, rfl⟩

theorem select_atomic {g : FeeTables → α} (hdb : c.db = t) (htx : c.tx = none) :
    wp (select context g) (Atomic t fun a u => a = g t ∧ u = t) c := by
  subst hdb
  unfold select
  rw [wp_mapErr]
  apply wp_statement_auto htx
  · exact fun e d hd hx => ⟨hx, hd⟩
  · intro a u d ha hd hx
    cases ha
    exact ⟨hx, rfl, hd⟩

theorem atomic_read {β : Type} {m : Runway α} {a : α} {k : α → Runway β}
    {R : β → FeeTables → Prop} (hm : wp m (Atomic t fun x u => x = a ∧ u = t) c)
    (hk : ∀ d, d.db = t → d.tx = none → wp (k a) (Atomic t R) d) :
    wp (m >>= k) (Atomic t R) c := by
  rw [wp_bind]
  refine wp_mono hm ?_ (fun _ _ h => h) fun _ h => h
  rintro x d ⟨hx, rfl, hd⟩
  exact hk d hd hx

theorem currentStateGeneration_atomic (hdb : c.db = t) (htx : c.tx = none) :
    wp currentStateGeneration (Atomic t fun n u => n = t.currentGeneration.toNat ∧ u = t) c :=
  atomic_read (select_atomic hdb htx) fun _ hd hx => (wp_pure ..).mpr ⟨hx, rfl, hd⟩

/-- Both kinds of write go through one statement, which keeps the data on an error. -/
theorem write_inside {w : FeeTables → α} (hdb : c.db = db) (htx : c.tx = some t) :
    wp (Eff.mapErr (RunwayError.sqlite context) (statement fun t =>
        match f t with
        | some u => .ok (w t, u)
        | none => .error .constraint))
      (Inside db fun a u => a = w t ∧ f t = some u) c := by
  rw [wp_mapErr]
  apply wp_statement_tx htx
  · exact fun e d hd _ => hd.trans hdb
  · intro a u d ha hd hx
    cases hu : f t with
    | none => simp [hu] at ha
    | some v =>
      simp only [hu, Except.ok.injEq, Prod.mk.injEq] at ha
      exact ⟨hd.trans hdb, u, hx, ha.1.symm, congrArg some ha.2⟩

theorem write_atomic {w : FeeTables → α} (hdb : c.db = t) (htx : c.tx = none) :
    wp (Eff.mapErr (RunwayError.sqlite context) (statement fun t =>
        match f t with
        | some u => .ok (w t, u)
        | none => .error .constraint))
      (Atomic t fun a u => a = w t ∧ f t = some u) c := by
  subst hdb
  rw [wp_mapErr]
  apply wp_statement_auto htx
  · exact fun e d hd hx => ⟨hx, hd⟩
  · intro a u d ha hd hx
    cases hu : f c.db with
    | none => simp [hu] at ha
    | some v =>
      simp only [hu, Except.ok.injEq, Prod.mk.injEq] at ha
      exact ⟨hx, ha.1.symm, congrArg some (ha.2.trans hd.symm)⟩

theorem execute_inside (hdb : c.db = db) (htx : c.tx = some t) :
    wp (execute context f) (Inside db fun _ u => f t = some u) c :=
  wp_mono (write_inside (w := fun _ => ()) hdb htx)
    (fun _ _ h => ⟨h.1, h.2.imp fun _ hu => ⟨hu.1, hu.2.2⟩⟩) (fun _ _ h => h) fun _ h => h

theorem executeInsert_inside (hdb : c.db = db) (htx : c.tx = some t) :
    wp (executeInsert context id f) (Inside db fun a u => a = id t ∧ f t = some u) c :=
  write_inside hdb htx

theorem executeInsert_atomic (hdb : c.db = t) (htx : c.tx = none) :
    wp (executeInsert context id f) (Atomic t fun a u => a = id t ∧ f t = some u) c :=
  write_atomic hdb htx

theorem forM_inside {β : Type} {xs : List β} {g : β → Runway PUnit} {P : List β → FeeTables → Prop}
    (hdb : c.db = db) (htx : c.tx = some t) (ht : P [] t)
    (hstep : ∀ before x u d, before ++ [x] <+: xs → P before u → d.db = db → d.tx = some u →
      wp (g x) (Inside db fun _ v => P (before ++ [x]) v) d) :
    wp (xs.forM g) (Inside db fun _ u => P xs u) c := by
  suffices h : ∀ rest before u d, before ++ rest = xs → P before u → d.db = db → d.tx = some u →
      wp (rest.forM g) (Inside db fun _ v => P xs v) d from h xs [] t c rfl ht hdb htx
  intro rest
  induction rest with
  | nil =>
    intro before u d hxs hu hd hx
    rw [List.append_nil] at hxs
    exact inside_pure hd hx (hxs ▸ hu)
  | cons x rest ih =>
    intro before u d hxs hu hd hx
    have hxs' : before ++ [x] ++ rest = xs := by rw [List.append_assoc]; exact hxs
    exact inside_bind (hstep before x u d ⟨rest, hxs'⟩ hu hd hx)
      fun _ v d' hv hd' hx' => ih (before ++ [x]) v d' hxs' hv hd' hx'

end Statements

section Quarantine

variable {t u : FeeTables}

def FeeTables.Quarantined (t : FeeTables) : Prop := ∃ r ∈ t.quarantine.rows, r.clearedAt = none

theorem latestEntry_eq_none {rows : List QuarantineRow} : latestEntry rows = none ↔ rows = [] := by
  cases rows with
  | nil => simp [latestEntry]
  | cons r rows =>
    simp only [latestEntry, reduceCtorEq, iff_false]
    cases latestEntry rows with
    | none => simp
    | some q =>
      dsimp only
      split <;> simp

theorem activeEntry_eq_none : t.activeEntry = none ↔ ¬ t.Quarantined := by
  unfold FeeTables.activeEntry FeeTables.Quarantined
  rw [latestEntry_eq_none, List.map_eq_nil_iff, List.filter_eq_nil_iff]
  simp [QuarantineRecord.active]

theorem insertQuarantineRow_eq {entry : QuarantineEntry}
    (h : t.insertQuarantineRow entry = some u) :
    u.attempts = t.attempts ∧ u.Quarantined ∧
      ∀ r ∈ t.quarantine.rows, r ∈ u.quarantine.rows := by
  unfold FeeTables.insertQuarantineRow at h
  by_cases hcycle : entry.cycleId.all t.hasCycle
  · rw [if_pos hcycle] at h
    cases h
    refine ⟨rfl, ⟨_, List.mem_append_right _ (List.mem_singleton.mpr rfl), rfl⟩, ?_⟩
    exact fun r hr => List.mem_append_left _ hr
  · rw [if_neg hcycle] at h
    cases h

end Quarantine

section Attempts

variable {t u : FeeTables} {db : FeeTables} {c : Connection FeeTables}

def AttemptRecord.resolve (outcome : BroadcastAttemptOutcome) (outcomeDetail : Option String)
    (completedAt : ℤ) (r : AttemptRecord) : AttemptRecord :=
  { r with
    outcome := some outcome
    outcomeDetail := outcomeDetail
    completedAt := some completedAt }

theorem resolve_id {outcome : BroadcastAttemptOutcome} {detail : Option String} {now : ℤ}
    (r : AttemptRecord) : (r.resolve outcome detail now).id = r.id := rfl

def FeeTables.resolveOrphans (t : FeeTables) (now : ℤ) : FeeTables :=
  { t with
    attempts := t.attempts.updateWhere (fun r => r.outcome.isNone)
      (AttemptRecord.resolve .ambiguous (some reconciledDetail) now) resolve_id }

theorem setOutcome_of_missing {id : ℕ} {outcome : BroadcastAttemptOutcome}
    {detail : Option String} {now : ℤ} (h : t.attempts.rows.countP (fun r => r.id = id) = 0) :
    t.setOutcome id outcome detail now = t := by
  unfold FeeTables.setOutcome
  rw [updateWhere_of_none]
  intro r hr
  have hne := List.countP_eq_zero.mp h r hr
  simpa using hne

theorem recordResult_inside {id : ℕ} {outcome : BroadcastAttemptOutcome} {detail : Option String}
    {now : ℤ} (hdb : c.db = db) (htx : c.tx = some t) :
    wp (recordBroadcastAttemptResult id outcome detail now)
      (Inside db fun _ u => u = t.setOutcome id outcome detail now) c := by
  unfold recordBroadcastAttemptResult
  apply inside_statement hdb htx
  intro updated u d hu hd hx
  cases hu
  rw [wp_ite]
  exact ⟨fun _ => inside_throw hd, fun _ => inside_pure hd hx rfl⟩

theorem recordResult_atomic {id : ℕ} {outcome : BroadcastAttemptOutcome} {detail : Option String}
    {now : ℤ} (hdb : c.db = t) (htx : c.tx = none) :
    wp (recordBroadcastAttemptResult id outcome detail now) (Atomic t fun _ u =>
      u = t.setOutcome id outcome detail now ∧ ∃ r ∈ t.attempts.rows, r.id = id) c := by
  unfold recordBroadcastAttemptResult
  apply atomic_statement hdb htx
  intro updated u d hu hd hx
  cases hu
  rw [wp_ite]
  constructor
  · intro hnone
    exact atomic_throw (hd.trans (setOutcome_of_missing hnone)) hx
  · intro hsome
    have hpos : 0 < t.attempts.rows.countP fun r => r.id = id := by omega
    obtain ⟨r, hr, hid⟩ := List.countP_pos_iff.mp hpos
    exact (wp_pure ..).mpr ⟨hx, hd, r, hr, by simpa using hid⟩

theorem mem_unresolved {r : AttemptRecord} :
    r ∈ t.unresolved ↔ r ∈ t.attempts.rows ∧ r.outcome = none := by
  unfold FeeTables.unresolved
  rw [List.mem_insertionSort, List.mem_filter, Option.isNone_iff_eq_none]

theorem id_mem_unresolved {r : AttemptRecord} (hr : r ∈ t.attempts.rows) :
    r.id ∈ t.unresolved.map AttemptRecord.id ↔ r.outcome.isNone := by
  rw [List.mem_map]
  constructor
  · rintro ⟨q, hq, hid⟩
    obtain ⟨hmem, hnone⟩ := mem_unresolved.mp hq
    obtain rfl := List.inj_on_of_nodup_map t.attempts.nodup hmem hr hid
    rw [hnone]
    rfl
  · intro hnone
    exact ⟨r, mem_unresolved.mpr ⟨hr, Option.isNone_iff_eq_none.mp hnone⟩, rfl⟩

def FeeTables.resolveIds (t : FeeTables) (ids : List ℕ) (now : ℤ) : FeeTables :=
  { t with
    attempts := t.attempts.updateWhere (fun r => r.id ∈ ids)
      (AttemptRecord.resolve .ambiguous (some reconciledDetail) now) resolve_id }

theorem resolveIds_snoc {ids : List ℕ} {id : ℕ} {now : ℤ} :
    (t.resolveIds ids now).setOutcome id .ambiguous (some reconciledDetail) now =
      t.resolveIds (ids ++ [id]) now := by
  unfold FeeTables.setOutcome FeeTables.resolveIds
  congr 1
  ext1
  simp only [Table.updateWhere, List.map_map]
  apply List.map_congr_left
  intro r _
  by_cases hid : r.id = id
  · subst hid
    by_cases hmem : r.id ∈ ids <;> simp [hmem, AttemptRecord.resolve]
  · by_cases hmem : r.id ∈ ids <;> simp [hmem, hid, AttemptRecord.resolve]

theorem resolveIds_unresolved {now : ℤ} :
    t.resolveIds (t.unresolved.map AttemptRecord.id) now = t.resolveOrphans now := by
  unfold FeeTables.resolveIds FeeTables.resolveOrphans
  congr 1
  ext1
  apply List.map_congr_left
  intro r hr
  have hiff := id_mem_unresolved hr
  simp only [decide_eq_true_eq, hiff]

inductive Reconciled (t : FeeTables) (now : ℤ) : FeeTables → Prop where
  | idle (h : t.unresolved = []) : Reconciled t now t
  | restored (h : t.unresolved ≠ []) (hactive : t.Quarantined) :
      Reconciled t now (t.resolveOrphans now)
  | entered (h : t.unresolved ≠ []) {entry : QuarantineEntry} {u : FeeTables}
      (hu : (t.resolveOrphans now).insertQuarantineRow entry = some u) : Reconciled t now u

theorem reconcile_inside {now : ℤ} (hdb : c.db = db) (htx : c.tx = some t) :
    wp (reconcileQuarantineOnRestartLocked now) (Inside db fun _ u => Reconciled t now u) c := by
  unfold reconcileQuarantineOnRestartLocked unresolvedBroadcastAttempts
  apply inside_bind (select_inside hdb htx)
  rintro orphaned u d ⟨rfl, rfl⟩ hd hx
  cases hlast : u.unresolved.getLast? with
  | none => exact inside_pure hd hx (.idle (List.getLast?_eq_none_iff.mp hlast))
  | some last =>
    have hne : u.unresolved ≠ [] := by
      intro hnil
      rw [hnil] at hlast
      cases hlast
    have hloop : wp (u.unresolved.forM fun row =>
        recordBroadcastAttemptResult row.id .ambiguous (some reconciledDetail) now)
        (Inside db fun _ v => v = u.resolveIds (u.unresolved.map AttemptRecord.id) now) d := by
      apply forM_inside
        (P := fun before v => v = u.resolveIds (before.map AttemptRecord.id) now) hd hx
      · unfold FeeTables.resolveIds
        rw [updateWhere_of_none]
        simp
      · rintro before row v d' - rfl hd' hx'
        refine wp_mono (recordResult_inside hd' hx') ?_ (fun _ _ h => h) fun _ h => h
        rintro _ d'' ⟨hd'', w, hx'', rfl⟩
        refine ⟨hd'', _, hx'', ?_⟩
        rw [resolveIds_snoc, List.map_append]
        rfl
    refine inside_bind hloop ?_
    rintro _ v d₁ rfl hd₁ hx₁
    rw [resolveIds_unresolved] at hx₁
    apply inside_bind (select_inside hd₁ hx₁)
    rintro active v d₂ ⟨rfl, rfl⟩ hd₂ hx₂
    by_cases hactive : (u.resolveOrphans now).activeEntry.isNone
    · rw [if_pos hactive]
      apply inside_bind (executeInsert_inside hd₂ hx₂)
      rintro _ w d₃ ⟨-, hw⟩ hd₃ hx₃
      exact inside_pure hd₃ hx₃ (.entered hne hw)
    · rw [if_neg hactive]
      refine inside_pure hd₂ hx₂ (.restored hne ?_)
      by_contra hnone
      exact hactive (Option.isNone_iff_eq_none.mpr (activeEntry_eq_none.mpr hnone))

theorem reconcile_atomic {now : ℤ} (hdb : c.db = t) (htx : c.tx = none) :
    wp (reconcileQuarantineOnRestart now) (Atomic t fun _ u => Reconciled t now u) c :=
  atomic_begin hdb htx fun _ hd hx => atomic_guarded (reconcile_inside hd hx)

end Attempts

section Commit

variable {t u v : FeeTables} {db : FeeTables} {c : Connection FeeTables} {commit : FeeCycleCommit}

structure SameCore (t u : FeeTables) : Prop where
  generation : u.generation = t.generation
  states : u.states = t.states
  cycles : u.cycles = t.cycles
  seeds : u.seeds = t.seeds
  attempts : u.attempts = t.attempts
  quarantine : u.quarantine = t.quarantine

theorem SameCore.refl (t : FeeTables) : SameCore t t := ⟨rfl, rfl, rfl, rfl, rfl, rfl⟩

theorem SameCore.trans (h : SameCore t u) (k : SameCore u v) : SameCore t v :=
  ⟨k.generation.trans h.generation, k.states.trans h.states, k.cycles.trans h.cycles,
    k.seeds.trans h.seeds, k.attempts.trans h.attempts, k.quarantine.trans h.quarantine⟩

theorem insertRequest_core {r : CycleChannelRecord PreparedFeeActionRow}
    (h : t.insertRequest r = some u) : SameCore t u := by
  unfold FeeTables.insertRequest at h
  split at h
  · obtain ⟨requests, -, rfl⟩ := Option.map_eq_some_iff.mp h
    exact ⟨rfl, rfl, rfl, rfl, rfl, rfl⟩
  · cases h

theorem insertLedger_core {cycleId : String} {r : LedgerRecord}
    (h : t.insertLedger cycleId r = some u) : SameCore t u := by
  unfold FeeTables.insertLedger at h
  split at h
  · cases h
    exact ⟨rfl, rfl, rfl, rfl, rfl, rfl⟩
  · cases h

theorem insertOutcome_core {r : CycleChannelRecord ShadowCycleOutcomeRow}
    (h : t.insertOutcome r = some u) : SameCore t u := by
  unfold FeeTables.insertOutcome at h
  split at h
  · obtain ⟨outcomes, -, rfl⟩ := Option.map_eq_some_iff.mp h
    exact ⟨rfl, rfl, rfl, rfl, rfl, rfl⟩
  · cases h

theorem insertTrigger_core {r : TriggerRecord} (h : t.insertTrigger r = some u) : SameCore t u := by
  unfold FeeTables.insertTrigger at h
  split at h
  · cases h
    exact ⟨rfl, rfl, rfl, rfl, rfl, rfl⟩
  · cases h

theorem audit_inside {β : Type} {xs : List β} {context : String}
    {f : β → FeeTables → Option FeeTables} (hf : ∀ x t u, f x t = some u → SameCore t u)
    (hdb : c.db = db) (htx : c.tx = some t) :
    wp (xs.forM fun x => execute context (f x)) (Inside db fun _ u => SameCore t u) c := by
  apply forM_inside (P := fun _ u => SameCore t u) hdb htx (.refl t)
  intro before x u d _ hu hd hx
  refine wp_mono (execute_inside hd hx) ?_ (fun _ _ h => h) fun _ h => h
  rintro _ d' ⟨hd', v, hx', hv⟩
  exact ⟨hd', v, hx', hu.trans (hf x u v hv)⟩

def FeeCycleCommit.cycleRecord (commit : FeeCycleCommit) (generation : ℤ) : CycleRecord where
  cycleId := commit.cycleId
  generation := generation
  startedAt := commit.startedAt
  completedAt := commit.completedAt
  sourceCommit := commit.sourceCommit
  binarySha256 := commit.binarySha256
  requestCount := commit.requests.length

/-- The states after the rows of a commit, the later row of a channel over the earlier one. -/
def writeStates (generation : ℤ) (rows : List FeeStateRow)
    (states : Table StateRecord String StateRecord.channelId) :
    Table StateRecord String StateRecord.channelId :=
  rows.foldl (fun states row => states.insertOrReplace ⟨row, generation⟩) states

/-- What a commit does to the seed events: it binds its pending seed to itself, as generation 1. -/
def SeedsAfter (t : FeeTables) (commit : FeeCycleCommit)
    (seeds : Table SeedRecord ℕ SeedRecord.id) : Prop :=
  match commit.pendingSeed with
  | none => seeds = t.seeds
  | some ev => ev.outcome = "seeded" ∧ t.currentGeneration = 0 ∧
      t.seeds.rows.any SeedRecord.seeded = false ∧
      seeds.rows = t.seeds.rows ++ [⟨t.seeds.nextKey, ev, some commit.cycleId, some 1⟩]

structure Committed (commit : FeeCycleCommit) (t : FeeTables) (generation : ℤ) (u : FeeTables) :
    Prop where
  next : generation = t.currentGeneration + 1
  stored : u.generation = some ⟨generation, commit.completedAt⟩
  cycles : t.cycles.insert? (commit.cycleRecord generation) = some u.cycles
  states : u.states = writeStates generation commit.stateRows t.states
  seeds : SeedsAfter t commit u.seeds
  attempts : u.attempts = t.attempts
  quarantine : u.quarantine = t.quarantine

theorem insertSeed_eq {ev : FeeSeedEventRow} {cycleId : Option String} {generation : Option ℤ}
    (h : t.insertSeed ev cycleId generation = some u) :
    (ev.outcome = "seeded" ∧ t.seeds.rows.any SeedRecord.seeded = false ∨
      ev.outcome = "seed_refused") ∧
    u = { t with seeds := u.seeds } ∧
    u.seeds.rows = t.seeds.rows ++ [⟨t.seeds.nextKey, ev, cycleId, generation⟩] := by
  unfold FeeTables.insertSeed at h
  split at h
  · cases h
  · rename_i hindex
    split at h
    · rename_i hcheck
      cases h
      refine ⟨?_, rfl, rfl⟩
      rcases hcheck with hseeded | hrefused
      · left
        refine ⟨hseeded, ?_⟩
        by_contra hany
        exact hindex ⟨hseeded, by simpa using hany⟩
      · exact .inr hrefused
    · cases h

theorem successfulSeed_inside {ev : FeeSeedEventRow} {prior generation : ℤ} {cycleId : String}
    (hdb : c.db = db) (htx : c.tx = some t) :
    wp (insertSuccessfulSeedLocked ev prior cycleId generation) (Inside db fun _ u =>
      ev.outcome = "seeded" ∧ prior = 0 ∧ generation = 1 ∧
        t.insertSeed ev (some cycleId) (some generation) = some u) c := by
  unfold insertSuccessfulSeedLocked
  rw [wp_ite]
  refine ⟨fun _ => inside_throw hdb, fun hseeded => ?_⟩
  rw [wp_ite]
  refine ⟨fun _ => inside_throw hdb, fun hprior => ?_⟩
  rw [wp_ite]
  refine ⟨fun _ => inside_throw hdb, fun hgeneration => ?_⟩
  refine wp_mono (execute_inside hdb htx) ?_ (fun _ _ h => h) fun _ h => h
  rintro _ d ⟨hd, u, hx, hu⟩
  exact ⟨hd, u, hx, not_ne_iff.mp hseeded, not_ne_iff.mp hprior, not_ne_iff.mp hgeneration, hu⟩

theorem commitRows_inside (hdb : c.db = db) (htx : c.tx = some t) :
    wp (commitRows commit) (Inside db fun generation u => Committed commit t generation u) c := by
  unfold commitRows
  apply inside_bind (select_inside hdb htx)
  rintro current t₀ d₀ ⟨rfl, rfl⟩ hd₀ hx₀
  apply inside_checked hd₀
  intro generation hnext
  have hgeneration : generation = t₀.currentGeneration + 1 := by
    split at hnext
    · exact (Option.some.inj hnext).symm
    · cases hnext
  apply inside_bind (execute_inside hd₀ hx₀)
  intro _ t₁ d₁ hcycle hd₁ hx₁
  obtain ⟨cycles, hcycles, rfl⟩ := Option.map_eq_some_iff.mp hcycle
  have hstates : wp (commit.stateRows.forM fun row => execute "upsert rust_fee_state row" fun t =>
      some (t.upsertState ⟨row, generation⟩)) (Inside db fun _ u =>
        u = { t₀ with
          cycles := cycles
          states := writeStates generation commit.stateRows t₀.states }) d₁ := by
    apply forM_inside (P := fun before u => u =
      { t₀ with cycles := cycles, states := writeStates generation before t₀.states }) hd₁ hx₁ rfl
    rintro before row u d - rfl hd hx
    refine wp_mono (execute_inside hd hx) ?_ (fun _ _ h => h) fun _ h => h
    rintro _ d' ⟨hd', v, hx', hv⟩
    refine ⟨hd', v, hx', ?_⟩
    rw [← Option.some.inj hv]
    simp [FeeTables.upsertState, writeStates]
  refine inside_bind hstates ?_
  rintro _ t₂ d₂ rfl hd₂ hx₂
  refine inside_bind (audit_inside (fun _ _ _ => insertRequest_core) hd₂ hx₂) ?_
  intro _ t₃ d₃ h₃ hd₃ hx₃
  refine inside_bind (audit_inside (fun _ _ _ => insertLedger_core) hd₃ hx₃) ?_
  intro _ t₄ d₄ h₄ hd₄ hx₄
  refine inside_bind (audit_inside (fun _ _ _ => insertLedger_core) hd₄ hx₄) ?_
  intro _ t₅ d₅ h₅ hd₅ hx₅
  refine inside_bind (audit_inside (fun _ _ _ => insertOutcome_core) hd₅ hx₅) ?_
  intro _ t₆ d₆ h₆ hd₆ hx₆
  have hcore := ((h₃.trans h₄).trans h₅).trans h₆
  apply inside_bind (execute_inside hd₆ hx₆)
  intro _ t₇ d₇ hbump hd₇ hx₇
  cases hbump
  have hreceipt : wp (commit.triggerReceipt.forM fun receipt =>
      execute "insert atomic trigger receipt row" fun t =>
        t.insertTrigger ⟨commit.cycleId, receipt⟩)
      (Inside db fun _ u =>
        SameCore { t₆ with generation := some ⟨generation, commit.completedAt⟩ } u)
      d₇ := by
    cases commit.triggerReceipt with
    | none => exact inside_pure hd₇ hx₇ (.refl _)
    | some receipt =>
      refine wp_mono (execute_inside hd₇ hx₇) ?_ (fun _ _ h => h) fun _ h => h
      rintro _ d ⟨hd, u, hx, hu⟩
      exact ⟨hd, u, hx, insertTrigger_core hu⟩
  refine inside_bind hreceipt ?_
  intro _ t₈ d₈ h₈ hd₈ hx₈
  have hseed : wp (commit.pendingSeed.forM fun seed =>
      insertSuccessfulSeedLocked seed t₀.currentGeneration commit.cycleId generation)
      (Inside db fun _ u => u = { t₈ with seeds := u.seeds } ∧
        SeedsAfter t₀ commit u.seeds) d₈ := by
    have hsame : t₈.seeds = t₀.seeds := h₈.seeds.trans hcore.seeds
    unfold SeedsAfter
    cases commit.pendingSeed with
    | none => exact inside_pure hd₈ hx₈ ⟨rfl, hsame⟩
    | some ev =>
      refine wp_mono (successfulSeed_inside hd₈ hx₈) ?_ (fun _ _ h => h) fun _ h => h
      rintro _ d ⟨hd, u, hx, hseeded, hprior, rfl, hu⟩
      obtain ⟨hindex, hframe, hrows⟩ := insertSeed_eq hu
      rw [hsame] at hindex hrows
      refine ⟨hd, u, hx, hframe, hseeded, hprior, ?_, hrows⟩
      rcases hindex with hindex | hrefused
      · exact hindex.2
      · rw [hseeded] at hrefused
        exact absurd hrefused (by decide)
  refine inside_bind hseed ?_
  rintro _ t₉ d₉ ⟨hframe, hseeds⟩ hd₉ hx₉
  refine inside_pure hd₉ hx₉ ?_
  constructor
  · exact hgeneration
  · rw [hframe]
    exact h₈.generation
  · rw [hframe]
    exact hcycles.trans (congrArg some (h₈.cycles.trans hcore.cycles).symm)
  · rw [hframe]
    exact h₈.states.trans hcore.states
  · exact hseeds
  · rw [hframe]
    exact h₈.attempts.trans hcore.attempts
  · rw [hframe]
    exact h₈.quarantine.trans hcore.quarantine

theorem commitLocked_atomic (hdb : c.db = t) (htx : c.tx = some t) :
    wp (commitFeeCycleLocked commit) (Atomic t fun generation u =>
      ∃ n, Committed commit t n u ∧ generation = n.toNat) c := by
  unfold commitFeeCycleLocked
  rw [wp_bind]
  refine wp_mono (atomic_guarded (commitRows_inside hdb htx)) ?_ (fun _ _ h => h) fun _ h => h
  rintro n d ⟨hx, hcommitted⟩
  exact (wp_pure ..).mpr ⟨hx, n, hcommitted, rfl⟩

theorem commitFeeCycle_atomic (hdb : c.db = t) (htx : c.tx = none) :
    wp (commitFeeCycle commit) (Atomic t fun generation u =>
      ∃ n, Committed commit t n u ∧ generation = n.toNat) c :=
  atomic_begin hdb htx fun _ hd hx => commitLocked_atomic hd hx

end Commit

end FeeRunway
