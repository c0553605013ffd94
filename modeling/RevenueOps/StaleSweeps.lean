import RevenueOps.BudgetRailLifecycle
import RevenueOps.StableSelection

/-! The age-based sweeps over the two reservation tables, of the rail and of the state writer,
and what each of them does to the hold of a payment that is still in flight. -/
namespace StaleSweeps

open FallibleState SqlTransaction KeyedTable RustText BudgetRail RailTables StableSelection

/-- BEGIN IMMEDIATE, the work, COMMIT; a ROLLBACK when the work fails. -/
def immediateTxn {α : Type} (work : Rail α) : Rail α := do
  sql beginImmediate
  let result ← Eff.attempt work
  match result with
  | .ok value => do
    sql commit
    pure value
  | .error e => do
    rollbackQuietly
    Eff.throw e

/-- The state writer's cleanup_stale_reservations. -/
def writerCleanupStaleReservations (maxAgeSeconds now : ℤ) : Rail ℤ := do
  let cutoff ← Eff.checked (checkedI64 (now - maxAgeSeconds))
  let released ← sql (updateLegacy (fun r => r.reservedAt < cutoff) .released)
  pure released

structure SpendReleaseBatch where
  releasedCount : ℤ
  releasedSats : ℤ
  reservationIds : List String
  deriving DecidableEq

def saturatingSub (a b : ℤ) : ℤ := max i64Min (min i64Max (a - b))

/-- SQLITE_MAX_VARIABLE_NUMBER: a statement with more parameters is refused. -/
def maxVariables : ℕ := 32766

/-- UPDATE spend_reservations SET status = 'released' WHERE reservation_id IN (..). -/
def releaseIds (t : RailTables) (ids : List String) : RailTables :=
  { t with
    spendReservations := t.spendReservations.updateWhere (fun r => r.reservationId ∈ ids)
      (fun r => { r with status := .released }) fun _ => rfl }

section Sweeps

variable [UnicodeCase]

/-- A category that is blank counts as none. -/
def normalizedCategory (category : Option String) : Option String :=
  ((category.map trim).filter fun value => value ≠ "").map toLowercase

def genericStale (category : Option String) (cutoff : ℤ) (r : SpendReservation) : Bool :=
  spendActive r && r.reservedAt < cutoff &&
    match normalizedCategory category with
    | some cat => r.category = cat
    | none => true

/-- ORDER BY reserved_at ASC LIMIT; rows of one time come in row order. -/
def genericSelected (t : RailTables) (category : Option String) (olderThan limit now : ℤ) :
    List SpendReservation :=
  (sortByKey SpendReservation.reservedAt (t.spendReservations.rows.filter
    (genericStale category (saturatingSub now (max olderThan 1))))).take (max limit 1).toNat

def releaseGenericSpendReservations (category : Option String) (olderThan limit now : ℤ) :
    Rail SpendReleaseBatch :=
  immediateTxn (do
    let selected ← sql (query fun t => .ok (genericSelected t category olderThan limit now))
    let ids := selected.map SpendReservation.reservationId
    if ids ≠ [] then
      sql (statement fun t =>
        if maxVariables < ids.length then .error (.fault (.other false))
        else .ok ((), releaseIds t ids))
    let sats ← Eff.checked (checkedTotal (selected.map SpendReservation.reservedSats))
    pure ⟨ids.length, sats, ids⟩)

inductive Sweep where
  | staleReservations (maxAge now : ℤ)
  | staleSpend (maxAge : ℤ) (category : Option String) (now : ℤ)
  | writerStale (maxAge now : ℤ)
  | generic (category : Option String) (olderThan limit now : ℤ)

/-- The committed tables after a sweep, under a script of statement failures. -/
def swept (t : RailTables) (faults : List (Option Fault)) : Sweep → RailTables
  | .staleReservations maxAge now => (perform t (.cleanupStaleReservations maxAge now) faults).2
  | .staleSpend maxAge category now =>
    (perform t (.cleanupStaleSpendReservations maxAge category now) faults).2
  | .writerStale maxAge now =>
    (SqlTransaction.call (writerCleanupStaleReservations maxAge now) faults t).2
  | .generic category olderThan limit now =>
    (SqlTransaction.call (releaseGenericSpendReservations category olderThan limit now) faults t).2

end Sweeps

/-- The id is that of a payment that may still settle. -/
def Parked (t : RailTables) (rid : String) : Prop :=
  ∃ rows, t.rebalanceHistory = some rows ∧
    ∃ h ∈ rows, h.status = "pending_settlement" ∧ toString h.id = rid

def HeldSpend (t : RailTables) (rid : String) : Prop :=
  ∃ q, t.spendReservations.find? rid = some q ∧ q.status = .active

def HeldLegacy (t : RailTables) (rid : String) : Prop :=
  ∃ q, t.budgetReservations.find? rid = some q ∧ q.status = .active

/-- No active row of a parked payment changes its status. -/
def KeepsHolds (t t' : RailTables) : Prop :=
  ∀ rid, Parked t rid → (HeldSpend t rid → HeldSpend t' rid) ∧
    (HeldLegacy t rid → HeldLegacy t' rid)

/-- The sweep selects no active row of a parked payment, or breaks off before it commits. -/
def Spares [UnicodeCase] (t : RailTables) : Sweep → Prop
  | .staleReservations _ _ => True
  | .staleSpend maxAge category now => (checkedI64 (now - maxAge)).isSome →
    ∀ q ∈ t.spendReservations.rows, q.status = .active → q.reservedAt < now - maxAge →
      sweepable category q = true → ¬ Parked t q.reservationId
  | .writerStale maxAge now => (checkedI64 (now - maxAge)).isSome →
    ∀ q ∈ t.budgetReservations.rows, q.status = .active → q.reservedAt < now - maxAge →
      ¬ Parked t q.reservationId
  | .generic category olderThan limit now =>
    let selected := genericSelected t category olderThan limit now
    selected.length ≤ maxVariables →
      (checkedTotal (selected.map SpendReservation.reservedSats)).isSome →
        ∀ q ∈ selected, ¬ Parked t q.reservationId

section Holds

variable {t : RailTables} {rid : String} {s : Status}

theorem heldSpend_flipSpend (hs : s ≠ .active) (p : SpendReservation → Bool) :
    HeldSpend (t.flipSpend p s) rid ↔
      ∃ q, t.spendReservations.find? rid = some q ∧ q.status = .active ∧ p q = false := by
  unfold HeldSpend
  rw [find_flipSpend]
  cases hq : t.spendReservations.find? rid with
  | none => simp
  | some q =>
    cases hp : p q with
    | false => simp [hp]
    | true =>
      by_cases hact : q.status = .active
      · simp [spendActive, hact, hp, hs]
      · simp [spendActive, hact]

theorem heldLegacy_flipLegacy (hs : s ≠ .active) (p : BudgetReservation → Bool) :
    HeldLegacy (t.flipLegacy p s) rid ↔
      ∃ q, t.budgetReservations.find? rid = some q ∧ q.status = .active ∧ p q = false := by
  unfold HeldLegacy
  rw [flipLegacy, find_updateWhere]
  cases hq : t.budgetReservations.find? rid with
  | none => simp
  | some q =>
    cases hp : p q with
    | false => simp [hp]
    | true =>
      by_cases hact : q.status = .active
      · simp [legacyActive, hact, hp, hs]
      · simp [legacyActive, hact]

theorem heldSpend_releaseIds (ids : List String) :
    HeldSpend (releaseIds t ids) rid ↔ HeldSpend t rid ∧ rid ∉ ids := by
  unfold HeldSpend releaseIds
  rw [find_updateWhere]
  cases hq : t.spendReservations.find? rid with
  | none => simp
  | some q =>
    have hid := find_key hq
    by_cases hmem : rid ∈ ids
    · simp [hid, hmem]
    · simp [hid, hmem]

theorem heldLegacy_releaseIds (ids : List String) :
    HeldLegacy (releaseIds t ids) rid ↔ HeldLegacy t rid := Iff.rfl

theorem heldLegacy_flipSpend (p : SpendReservation → Bool) :
    HeldLegacy (t.flipSpend p s) rid ↔ HeldLegacy t rid := Iff.rfl

theorem heldSpend_flipLegacy (p : BudgetReservation → Bool) :
    HeldSpend (t.flipLegacy p s) rid ↔ HeldSpend t rid := Iff.rfl

theorem KeepsHolds.refl (t : RailTables) : KeepsHolds t t := fun _ _ => ⟨id, id⟩

theorem mem_parkedIds {ids : List String}
    (hids : t.parkedIds = .ok ids) (h : Parked t rid) : rid ∈ ids := by
  obtain ⟨rows, hrows, r, hr, hstatus, rfl⟩ := h
  unfold parkedIds at hids
  rw [hrows] at hids
  rw [← Except.ok.inj hids]
  exact List.mem_map.mpr ⟨r, List.mem_filter.mpr ⟨hr, by simp [hstatus]⟩, rfl⟩

theorem heldSpend_of_row {q : SpendReservation} (hq : q ∈ t.spendReservations.rows)
    (hact : q.status = .active) : HeldSpend t q.reservationId :=
  ⟨q, find_eq_some_iff.mpr ⟨hq, rfl⟩, hact⟩

theorem heldLegacy_of_row {q : BudgetReservation} (hq : q ∈ t.budgetReservations.rows)
    (hact : q.status = .active) : HeldLegacy t q.reservationId :=
  ⟨q, find_eq_some_iff.mpr ⟨hq, rfl⟩, hact⟩

end Holds

section Effects

variable {t : RailTables}

theorem immediateTxn_spec {α : Type} {work : Rail α} {R : α → RailTables → Prop}
    {faults : List (Option Fault)}
    (h : ∀ d : Connection RailTables, d.db = t → d.tx = some t → wp work (Inside t R) d) :
    wp (immediateTxn work) (Atomic t R) ⟨t, none, faults⟩ := by
  refine atomic_begin rfl rfl fun d hdb htx => ?_
  refine atomic_attempt (h d hdb htx) (fun a t' d ha hd hx => ?_) fun e d hd => ?_
  · exact atomic_commit hd hx fun d hd hx => (wp_pure ..).mpr ⟨hx, by rwa [hd]⟩
  · exact atomic_rollbackQuietly hd fun d hd hx => atomic_throw hd hx

theorem writerCleanup_spec {maxAge now : ℤ} {faults : List (Option Fault)} :
    wp (writerCleanupStaleReservations maxAge now) (Atomic t fun _ t' =>
      (checkedI64 (now - maxAge)).isSome ∧
        t' = t.flipLegacy (fun r => r.reservedAt < now - maxAge) .released) ⟨t, none, faults⟩ := by
  refine atomic_checked rfl fun cutoff hc => ?_
  obtain rfl := checkedI64_eq hc
  refine atomic_statement rfl rfl fun n t' d hn hd hx => ?_
  obtain ⟨rfl, rfl⟩ := Prod.mk.inj (Except.ok.inj hn)
  exact (wp_pure ..).mpr ⟨hx, by simp [hc], hd⟩

theorem releaseIds_nil (t : RailTables) : releaseIds t [] = t := by
  unfold releaseIds
  rw [updateWhere_of_none]
  simp

variable [UnicodeCase]

def GenericReleases (t : RailTables) (category : Option String) (olderThan limit now : ℤ)
    (t' : RailTables) : Prop :=
  (genericSelected t category olderThan limit now).length ≤ maxVariables ∧
    (checkedTotal ((genericSelected t category olderThan limit now).map
      SpendReservation.reservedSats)).isSome ∧
    t' = releaseIds t ((genericSelected t category olderThan limit now).map
      SpendReservation.reservationId)

theorem releaseGeneric_spec {category : Option String} {olderThan limit now : ℤ}
    {faults : List (Option Fault)} :
    wp (releaseGenericSpendReservations category olderThan limit now)
      (Atomic t fun _ t' => GenericReleases t category olderThan limit now t')
      ⟨t, none, faults⟩ := by
  refine immediateTxn_spec fun d hdb htx => ?_
  refine inside_query hdb htx fun selected d hs hdb htx => ?_
  obtain rfl := Except.ok.inj hs
  simp only
  by_cases hids : (genericSelected t category olderThan limit now).map
      SpendReservation.reservationId = []
  · rw [if_neg (not_not_intro hids)]
    refine inside_checked hdb fun sats hsats => ?_
    refine inside_pure hdb htx ⟨?_, by simp [hsats], ?_⟩
    · have hlen := congrArg List.length hids
      rw [List.length_map, List.length_nil] at hlen
      omega
    · rw [hids, releaseIds_nil]
  · rw [if_pos hids]
    refine inside_statement hdb htx fun _ t' d hst hdb htx => ?_
    split at hst
    · simp at hst
    · rename_i hlen
      obtain rfl := (Prod.mk.inj (Except.ok.inj hst)).2
      refine inside_checked hdb fun sats hsats => ?_
      exact inside_pure hdb htx ⟨by simpa using hlen, by simp [hsats], rfl⟩

theorem releaseGeneric_clean {category : Option String} {olderThan limit now : ℤ}
    (hlen : (genericSelected t category olderThan limit now).length ≤ maxVariables)
    (hsum : (checkedTotal ((genericSelected t category olderThan limit now).map
      SpendReservation.reservedSats)).isSome) :
    swept t [] (.generic category olderThan limit now) =
      releaseIds t ((genericSelected t category olderThan limit now).map
        SpendReservation.reservationId) := by
  obtain ⟨sats, hsats⟩ := Option.isSome_iff_exists.mp hsum
  by_cases hids : genericSelected t category olderThan limit now = []
  · rw [hids, List.map_nil, releaseIds_nil]
    simp [swept, SqlTransaction.call, releaseGenericSpendReservations, immediateTxn, bind,
      Eff.bind, sql, Eff.mapErr, beginImmediate, Eff.attempt, query, statement, Connection.fault,
      Connection.visible, Connection.written, commit, Eff.checked, Eff.pure, pure, Except.map, hids,
      checkedTotal]
  · simp [swept, SqlTransaction.call, releaseGenericSpendReservations, immediateTxn, bind,
      Eff.bind, sql, Eff.mapErr, beginImmediate, Eff.attempt, query, statement, Connection.fault,
      Connection.visible, Connection.written, commit, Eff.checked, Eff.pure, pure, Except.map, hids,
      not_lt.mpr hlen, hsats]

theorem writerCleanup_clean {maxAge now : ℤ} (h : (checkedI64 (now - maxAge)).isSome) :
    swept t [] (.writerStale maxAge now) =
      t.flipLegacy (fun r => r.reservedAt < now - maxAge) .released := by
  obtain ⟨c, hc⟩ := Option.isSome_iff_exists.mp h
  obtain rfl := checkedI64_eq hc
  simp only [swept, SqlTransaction.call, writerCleanupStaleReservations, hc]
  rfl

theorem staleSpend_clean {maxAge now : ℤ} {category : Option String}
    (h : (checkedI64 (now - maxAge)).isSome) :
    swept t [] (.staleSpend maxAge category now) =
      t.flipSpend (fun r => r.reservedAt < now - maxAge ∧ sweepable category r) .released := by
  obtain ⟨c, hc⟩ := Option.isSome_iff_exists.mp h
  obtain rfl := checkedI64_eq hc
  simp only [swept, perform, SqlTransaction.call, BudgetRail.exec,
    cleanupStaleSpendReservations, hc]
  rfl

theorem staleReservations_keeps (t : RailTables) (maxAge now : ℤ) (faults : List (Option Fault)) :
    KeepsHolds t (swept t faults (.staleReservations maxAge now)) := by
  intro rid hparked
  have hlegacy : ∀ ids, t.parkedIds = .ok ids → HeldLegacy t rid → HeldLegacy (t.flipLegacy
      (fun r => r.reservedAt < now - maxAge ∧ r.reservationId ∉ ids) .released) rid := by
    rintro ids hids ⟨q, hq, hact⟩
    rw [heldLegacy_flipLegacy (by decide)]
    exact ⟨q, hq, hact, by simp [find_key hq, mem_parkedIds hids hparked]⟩
  rcases perform_cases t (.cleanupStaleReservations maxAge now) faults with
    ⟨reply, -, he⟩ | ⟨-, he⟩
  · cases reply with
    | count n =>
      obtain ⟨ids, hids, h⟩ := he
      cases h with
      | inl h =>
        rw [swept, h]
        exact ⟨id, hlegacy ids hids⟩
      | inr h =>
        rw [swept, h, heldLegacy_flipSpend]
        refine ⟨?_, hlegacy ids hids⟩
        rintro ⟨q, hq, hact⟩
        rw [heldSpend_flipSpend (by decide)]
        exact ⟨q, hq, hact, by simp [find_key hq, mem_parkedIds hids hparked]⟩
    | _ => exact he.elim
  · rw [swept, he]
    exact ⟨id, id⟩

theorem staleSpend_none {maxAge now : ℤ} {category : Option String}
    {faults : List (Option Fault)} (h : checkedI64 (now - maxAge) = none) :
    swept t faults (.staleSpend maxAge category now) = t := by
  simp only [swept, perform, SqlTransaction.call, BudgetRail.exec, cleanupStaleSpendReservations, h]
  rfl

theorem staleSpend_cases (t : RailTables) (maxAge now : ℤ) (category : Option String)
    (faults : List (Option Fault)) :
    swept t faults (.staleSpend maxAge category now) = t ∨
      (checkedI64 (now - maxAge)).isSome ∧ swept t faults (.staleSpend maxAge category now) =
        t.flipSpend (fun r => r.reservedAt < now - maxAge ∧ sweepable category r) .released := by
  cases hc : checkedI64 (now - maxAge) with
  | none => exact .inl (staleSpend_none hc)
  | some cutoff =>
    rcases perform_cases t (.cleanupStaleSpendReservations maxAge category now) faults with
      ⟨reply, -, he⟩ | ⟨-, he⟩
    · cases reply with
      | count n => exact .inr ⟨rfl, he⟩
      | _ => exact he.elim
    · exact .inl he

theorem writerStale_cases (t : RailTables) (maxAge now : ℤ) (faults : List (Option Fault)) :
    swept t faults (.writerStale maxAge now) = t ∨
      (checkedI64 (now - maxAge)).isSome ∧ swept t faults (.writerStale maxAge now) =
        t.flipLegacy (fun r => r.reservedAt < now - maxAge) .released := by
  rcases call_atomic faults (@writerCleanup_spec t maxAge now faults) with ⟨_, -, h⟩ | ⟨-, h⟩
  · exact .inr h
  · exact .inl h

theorem generic_cases (t : RailTables) (category : Option String) (olderThan limit now : ℤ)
    (faults : List (Option Fault)) :
    swept t faults (.generic category olderThan limit now) = t ∨
      GenericReleases t category olderThan limit now
        (swept t faults (.generic category olderThan limit now)) := by
  rcases call_atomic faults (@releaseGeneric_spec t _ category olderThan limit now faults) with
    ⟨_, -, h⟩ | ⟨-, h⟩
  · exact .inr h
  · exact .inl h

theorem mem_genericSelected {category : Option String} {olderThan limit now : ℤ}
    {q : SpendReservation} (h : q ∈ genericSelected t category olderThan limit now) :
    q ∈ t.spendReservations.rows ∧ q.status = .active := by
  have hsort := (perm_sortByKey _).mem_iff.mp (List.mem_of_mem_take h)
  rw [List.mem_filter] at hsort
  refine ⟨hsort.1, ?_⟩
  have hstale := hsort.2
  simp only [genericStale, spendActive, Bool.and_eq_true, decide_eq_true_eq] at hstale
  exact hstale.1.1

/-- A sweep keeps the parked holds under its condition, whatever statements fail. -/
theorem keepsHolds_of_spares {s : Sweep} (h : Spares t s) (faults : List (Option Fault)) :
    KeepsHolds t (swept t faults s) := by
  cases s with
  | staleReservations maxAge now => exact staleReservations_keeps t maxAge now faults
  | staleSpend maxAge category now =>
    rcases staleSpend_cases t maxAge now category faults with heq | ⟨hcutoff, heq⟩
    · rw [heq]
      exact .refl t
    · rw [heq]
      intro rid hparked
      rw [heldLegacy_flipSpend, heldSpend_flipSpend (by decide)]
      refine ⟨?_, id⟩
      rintro ⟨q, hq, hact⟩
      refine ⟨q, hq, hact, ?_⟩
      rw [decide_eq_false_iff_not]
      rintro ⟨hold, hscope⟩
      exact h hcutoff q (find_eq_some_iff.mp hq).1 hact hold hscope (find_key hq ▸ hparked)
  | writerStale maxAge now =>
    rcases writerStale_cases t maxAge now faults with heq | ⟨hcutoff, heq⟩
    · rw [heq]
      exact .refl t
    · rw [heq]
      intro rid hparked
      rw [heldSpend_flipLegacy, heldLegacy_flipLegacy (by decide)]
      refine ⟨id, ?_⟩
      rintro ⟨q, hq, hact⟩
      refine ⟨q, hq, hact, ?_⟩
      rw [decide_eq_false_iff_not]
      intro hold
      exact h hcutoff q (find_eq_some_iff.mp hq).1 hact hold (find_key hq ▸ hparked)
  | generic category olderThan limit now =>
    rcases generic_cases t category olderThan limit now faults with heq | ⟨hlen, hsum, heq⟩
    · rw [heq]
      exact .refl t
    · rw [heq]
      intro rid hparked
      rw [heldLegacy_releaseIds, heldSpend_releaseIds]
      refine ⟨fun hheld => ⟨hheld, ?_⟩, id⟩
      intro hmem
      obtain ⟨q, hq, rfl⟩ := List.mem_map.mp hmem
      exact h hlen hsum q hq hparked

theorem spares_of_keepsHolds {s : Sweep} (h : KeepsHolds t (swept t [] s)) : Spares t s := by
  cases s with
  | staleReservations maxAge now => trivial
  | staleSpend maxAge category now =>
    intro hcutoff q hq hact hold hscope hparked
    rw [staleSpend_clean hcutoff] at h
    have hheld := (h _ hparked).1 (heldSpend_of_row hq hact)
    rw [heldSpend_flipSpend (by decide)] at hheld
    obtain ⟨q', hq', -, hkept⟩ := hheld
    obtain rfl := Option.some.inj ((find_eq_some_iff.mpr ⟨hq, rfl⟩).symm.trans hq')
    simp [hold, hscope] at hkept
  | writerStale maxAge now =>
    intro hcutoff q hq hact hold hparked
    rw [writerCleanup_clean hcutoff] at h
    have hheld := (h _ hparked).2 (heldLegacy_of_row hq hact)
    rw [heldLegacy_flipLegacy (by decide)] at hheld
    obtain ⟨q', hq', -, hkept⟩ := hheld
    obtain rfl := Option.some.inj ((find_eq_some_iff.mpr ⟨hq, rfl⟩).symm.trans hq')
    simp [hold] at hkept
  | generic category olderThan limit now =>
    intro hlen hsum q hq hparked
    rw [releaseGeneric_clean hlen hsum] at h
    obtain ⟨hrow, hact⟩ := mem_genericSelected hq
    have hheld := (h _ hparked).1 (heldSpend_of_row hrow hact)
    rw [heldSpend_releaseIds] at hheld
    exact hheld.2 (List.mem_map.mpr ⟨q, hq, rfl⟩)

theorem keepsHolds_iff (t : RailTables) (s : Sweep) :
    (∀ faults, KeepsHolds t (swept t faults s)) ↔ Spares t s :=
  ⟨fun h => spares_of_keepsHolds (h []), keepsHolds_of_spares⟩

end Effects

end StaleSweeps
