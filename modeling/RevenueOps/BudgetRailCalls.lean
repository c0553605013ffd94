import RevenueOps.BudgetRail
import Mathlib.Tactic.Linarith
import Mathlib.Algebra.Order.Ring.Abs

/-! What each call on the budget rail can do to the committed tables.
One relation covers every operation; the guards of the source are part of it, so later
proofs never look at a statement, a transaction or a failure again. -/
namespace BudgetRail

open FallibleState SqlTransaction KeyedTable RustText JsonValue RailTables

section Arithmetic

theorem checkedI64_eq {x v : ℤ} (h : checkedI64 x = some v) : v = x := by
  unfold checkedI64 at h
  split at h
  · exact (Option.some.inj h).symm
  · exact absurd h (by simp)

theorem foldlM_checked {xs : List ℤ} {a v : ℤ}
    (h : xs.foldlM (fun acc x => checkedI64 (acc + x)) a = some v) : v = a + xs.sum := by
  induction xs generalizing a with
  | nil => simpa using h.symm
  | cons x xs ih =>
    rw [List.foldlM_cons] at h
    cases hc : checkedI64 (a + x) with
    | none => simp [hc] at h
    | some b =>
      simp only [hc, Option.bind_eq_bind, Option.bind_some] at h
      rw [ih h, checkedI64_eq hc, List.sum_cons, add_assoc]

theorem checkedTotal_eq {xs : List ℤ} {v : ℤ} (h : checkedTotal xs = some v) : v = xs.sum := by
  simpa using foldlM_checked h

theorem sumI64_eq {xs : List ℤ} {v : ℤ} (h : sumI64 xs = .ok v) : v = xs.sum := by
  unfold sumI64 at h
  cases hc : checkedTotal xs with
  | none => simp [hc] at h
  | some w =>
    simp only [hc, Except.ok.injEq] at h
    exact h ▸ checkedTotal_eq hc

@[simp] theorem sanitizeAmount_idem (a : ℤ) :
    sanitizeAmount (sanitizeAmount a) = sanitizeAmount a := by
  unfold sanitizeAmount maxAmountSats
  by_cases h : 10000000000 < |a|
  · by_cases h0 : 0 ≤ a <;> simp only [h, h0] <;> norm_num
  · simp only [h, if_false]

/-- Clamping never lifts an amount above a non-negative bound that it respects. -/
theorem sanitizeAmount_le {a b : ℤ} (hb : 0 ≤ b) (h : a ≤ b) : sanitizeAmount a ≤ b := by
  unfold sanitizeAmount maxAmountSats
  rcases abs_cases a with ⟨ha, h0⟩ | ⟨ha, h0⟩ <;> rw [ha] <;> split <;> (try split) <;> omega

end Arithmetic

namespace RailTables

/-- The active amount stored under an id, which a new reservation of the id replaces. -/
def held (t : RailTables) (rid : String) : ℤ :=
  contribution spendActive SpendReservation.reservedSats (t.spendReservations.find? rid)

/-- Active holds of both tables, without a window, and the spend committed since a time. -/
def windowTotal (t : RailTables) (since : ℤ) : ℤ :=
  t.spendHolds.sum + t.legacyHolds.sum + (t.costsSince since).sum + (t.eventsSince since).sum

/-- What a limit leaves once the row stands in the place of its id's active amount. -/
def room (t : RailTables) (limit since : ℤ) (row : SpendReservation) : ℤ :=
  limit - (t.windowTotal since - t.held row.reservationId) - row.reservedSats

end RailTables

/-- The conditions under which a reservation is granted, and the remaining headroom told. -/
structure Grants (t : RailTables) (req : ReserveRequest) (since : ℤ) (row : SpendReservation)
    (remaining : ℤ) : Prop where
  notTerminal : ∀ q, t.spendReservations.find? row.reservationId = some q →
    q.status ≠ .spent ∧ q.status ≠ .released
  daily : ∀ budget, req.effectiveBudgetSats = some budget → 0 ≤ t.room budget since row
  weekly : ∀ budget limit weeklySince, req.effectiveBudgetSats = some budget →
    req.weeklyBudgetLimit = some limit → req.weeklySinceTimestamp = some weeklySince →
      0 ≤ t.room limit weeklySince row
  remaining : remaining = match req.effectiveBudgetSats with
    | none => 0
    | some budget =>
      match req.weeklyBudgetLimit, req.weeklySinceTimestamp with
      | some limit, some weeklySince => min (t.room budget since row) (t.room limit weeklySince row)
      | _, _ => t.room budget since row

def Reserves (t : RailTables) (req : ReserveRequest) (since : ℤ) (row : SpendReservation)
    (a : Bool × ℤ) (t' : RailTables) : Prop :=
  if a.1 then t' = t.putReservation row ∧ Grants t req since row a.2 else t' = t

section Reserve

variable {t : RailTables} {db : RailTables} {c : Connection RailTables}

private theorem dailyRemaining_spec {budget since existing gen reb : ℤ} (hdb : c.db = db)
    (htx : c.tx = some t) :
    wp (dailyRemaining budget since existing gen reb) (Inside db fun v t' => t = t' ∧
      v = budget - (gen + reb + (t.costsSince since).sum + (t.eventsSince since).sum -
        existing)) c := by
  refine inside_query hdb htx fun reb' d h₁ hdb htx => ?_
  refine inside_query hdb htx fun gen' d h₂ hdb htx => ?_
  refine inside_checked hdb fun total h₃ => ?_
  refine inside_checked hdb fun already h₄ => ?_
  rw [wp_checked]
  refine ⟨fun v h₅ => ⟨hdb, t, htx, rfl, ?_⟩, fun _ => hdb⟩
  rw [checkedI64_eq h₅, checkedI64_eq h₄, checkedTotal_eq h₃, sumI64_eq h₁, sumI64_eq h₂]
  simp only [List.sum_cons, List.sum_nil]
  omega

private theorem weeklyRemaining_spec {limit since existing gen reb : ℤ} (hdb : c.db = db)
    (htx : c.tx = some t) :
    wp (weeklyRemaining limit since existing gen reb) (Inside db fun v t' => t = t' ∧
      v = limit - (gen + reb + (t.costsSince since).sum + (t.eventsSince since).sum -
        existing)) c := by
  refine inside_query hdb htx fun spent d h₁ hdb htx => ?_
  refine inside_query hdb htx fun gen' d h₂ hdb htx => ?_
  refine inside_checked hdb fun total h₃ => ?_
  refine inside_checked hdb fun already h₄ => ?_
  rw [wp_checked]
  refine ⟨fun v h₅ => ⟨hdb, t, htx, rfl, ?_⟩, fun _ => hdb⟩
  rw [checkedI64_eq h₅, checkedI64_eq h₄, checkedTotal_eq h₃, sumI64_eq h₁, sumI64_eq h₂]
  simp only [List.sum_cons, List.sum_nil]
  omega

private theorem reserveWithin_spec {req : ReserveRequest} {budget since : ℤ}
    {row : SpendReservation} (hdb : c.db = db) (htx : c.tx = some t)
    (hbudget : req.effectiveBudgetSats = some budget)
    (hterm : ∀ q, t.spendReservations.find? row.reservationId = some q →
      q.status ≠ .spent ∧ q.status ≠ .released) :
    wp (reserveWithin req budget since (t.held row.reservationId) row)
      (Inside db (Reserves t req since row)) c := by
  refine inside_query hdb htx fun gen d hgen hdb htx => ?_
  refine inside_query hdb htx fun reb d hreb hdb htx => ?_
  refine inside_bind (dailyRemaining_spec hdb htx) ?_
  rintro daily _ d ⟨rfl, hdaily⟩ hdb htx
  have hroom : daily - row.reservedSats = t.room budget since row := by
    rw [hdaily, sumI64_eq hgen, sumI64_eq hreb]
    rfl
  rw [wp_ite]
  refine ⟨fun _ => inside_pure hdb htx (by simp [Reserves]), fun hfits => ?_⟩
  have hd : ∀ b, req.effectiveBudgetSats = some b → 0 ≤ t.room b since row := by
    intro b hb
    obtain rfl := Option.some.inj (hbudget.symm.trans hb)
    omega
  rcases hl : req.weeklyBudgetLimit with _ | limit
  · refine inside_statement hdb htx fun _ t' d ht hdb htx => ?_
    obtain rfl : t' = t.putReservation row := by simpa using ht.symm
    refine inside_checked hdb fun after hafter => inside_pure hdb htx ?_
    simp only [Reserves, if_true, true_and]
    refine ⟨hterm, hd, by simp [hl], ?_⟩
    simp only [hbudget, hl, checkedI64_eq hafter, hroom]
  rcases hs : req.weeklySinceTimestamp with _ | weeklySince
  · refine inside_statement hdb htx fun _ t' d ht hdb htx => ?_
    obtain rfl : t' = t.putReservation row := by simpa using ht.symm
    refine inside_checked hdb fun after hafter => inside_pure hdb htx ?_
    simp only [Reserves, if_true, true_and]
    refine ⟨hterm, hd, by simp [hs], ?_⟩
    simp only [hbudget, hl, hs, checkedI64_eq hafter, hroom]
  refine inside_bind (weeklyRemaining_spec hdb htx) ?_
  rintro weekly _ d ⟨rfl, hweekly⟩ hdb htx
  have hwroom : weekly - row.reservedSats = t.room limit weeklySince row := by
    rw [hweekly, sumI64_eq hgen, sumI64_eq hreb]
    rfl
  rw [wp_ite]
  refine ⟨fun _ => inside_pure hdb htx (by simp [Reserves]), fun hwfits => ?_⟩
  refine inside_statement hdb htx fun _ t' d ht hdb htx => ?_
  obtain rfl : t' = t.putReservation row := by simpa using ht.symm
  refine inside_checked hdb fun after hafter => ?_
  refine inside_checked hdb fun weeklyAfter hweeklyAfter => inside_pure hdb htx ?_
  simp only [Reserves, if_true, true_and]
  refine ⟨hterm, hd, ?_, ?_⟩
  · intro _ l w _ hl' hs'
    obtain rfl := Option.some.inj (hl.symm.trans hl')
    obtain rfl := Option.some.inj (hs.symm.trans hs')
    omega
  · simp only [hbudget, hl, hs, checkedI64_eq hafter, checkedI64_eq hweeklyAfter, hroom, hwroom]

private theorem existingActiveSats_spec {rid : String} (hdb : c.db = db) (htx : c.tx = some t) :
    wp (existingActiveSats rid ((t.spendReservations.find? rid).map SpendReservation.status))
      (Inside db fun v t' => t = t' ∧ v = t.held rid) c := by
  cases hq : t.spendReservations.find? rid with
  | none => exact inside_pure hdb htx ⟨rfl, by simp [held, hq]⟩
  | some q =>
    cases hs : q.status with
    | active =>
      rw [Option.map_some, hs, existingActiveSats, sql, wp_mapErr]
      refine wp_query_tx htx (fun _ d hd => hd.trans hdb) fun v d hv hd htx' => ?_
      refine ⟨hd.trans hdb, t, htx', rfl, ?_⟩
      simp only [hq, Option.map_some, Option.getD_some, Except.ok.injEq] at hv
      simp [held, hq, spendActive, hs, hv]
    | _ =>
      rw [Option.map_some, hs]
      exact inside_pure hdb htx ⟨rfl, by simp [held, hq, spendActive, hs]⟩

theorem reserveSpendBody_spec {req : ReserveRequest} {since : ℤ} {row : SpendReservation}
    (hdb : c.db = db) (htx : c.tx = some t) :
    wp (reserveSpendBody req since row) (Inside db (Reserves t req since row)) c := by
  refine inside_query hdb htx fun existing d he hdb htx => ?_
  obtain rfl := Except.ok.inj he
  rw [wp_ite]
  refine ⟨fun _ => inside_pure hdb htx (by simp [Reserves]), fun hopen => ?_⟩
  have hterm : ∀ q, t.spendReservations.find? row.reservationId = some q →
      q.status ≠ .spent ∧ q.status ≠ .released := by
    intro q hq
    simpa [hq] using hopen
  refine inside_bind (existingActiveSats_spec hdb htx) ?_
  rintro existing _ d ⟨rfl, rfl⟩ hdb htx
  rcases hb : req.effectiveBudgetSats with _ | budget
  · refine inside_statement hdb htx fun _ t' d ht hdb htx => inside_pure hdb htx ?_
    obtain rfl : t' = t.putReservation row := by simpa using ht.symm
    exact ⟨rfl, hterm, by simp [hb], by simp [hb], by simp [hb]⟩
  · exact reserveWithin_spec hdb htx hb hterm

end Reserve

namespace RailTables

theorem flipSpend_of_none {t : RailTables} {p : SpendReservation → Bool} {s : Status}
    (h : t.countSpend p = 0) : t.flipSpend p s = t := by
  have hnone : ∀ r ∈ t.spendReservations.rows, (spendActive r && p r) = false := by
    intro r hr
    simpa using List.countP_eq_zero.mp h r hr
  simp only [flipSpend, updateWhere_of_none _ _ _ _ hnone]

theorem flipLegacy_of_none {t : RailTables} {p : BudgetReservation → Bool} {s : Status}
    (h : t.countLegacy p = 0) : t.flipLegacy p s = t := by
  have hnone : ∀ r ∈ t.budgetReservations.rows, (legacyActive r && p r) = false := by
    intro r hr
    simpa using List.countP_eq_zero.mp h r hr
  simp only [flipLegacy, updateWhere_of_none _ _ _ _ hnone]

theorem countSpend_id_pos {t : RailTables} {rid : String} :
    0 < t.countSpend (fun r => r.reservationId = rid) ↔
      ∃ q, t.spendReservations.find? rid = some q ∧ q.status = .active := by
  simp only [countSpend, List.countP_pos_iff, Bool.and_eq_true, spendActive, decide_eq_true_eq,
    find_eq_some_iff]
  constructor
  · rintro ⟨q, hq, hs, hid⟩
    exact ⟨q, ⟨hq, hid⟩, hs⟩
  · rintro ⟨q, ⟨hq, hid⟩, hs⟩
    exact ⟨q, hq, hs, hid⟩

end RailTables

def Records (t : RailTables) (ev : SpendEvent) (t' : RailTables) : Prop :=
  ∃ e : SpendEventRow, e.eventId = trim ev.eventId ∧ e.amountSats = sanitizeAmount ev.amountSats ∧
    e.timestamp = ev.timestamp ∧ 0 < e.amountSats ∧ t' = t.putEvent e

section Settle

variable {t db : RailTables} {c : Connection RailTables}

private theorem writeEvent_inside {row : SpendEventRow} (n : ℕ) {last : Option SqlError}
    {c : Connection RailTables} (hdb : c.db = db) (htx : c.tx = some t) :
    wp (writeEvent row n last) (Inside db fun b t' => b = true ∧ t' = t.putEvent row) c := by
  induction n generalizing c last with
  | zero =>
    cases last with
    | none => exact inside_panic hdb
    | some e => exact inside_throw hdb
  | succ n ih =>
    rw [writeEvent, wp_bind, sql, wp_mapErr, wp_attempt]
    refine wp_statement_tx htx (fun e d hd hbusy => ?_) fun _ t' d ht hd hx => ?_
    · simp only [Post.ofOk]
      rw [wp_ite]
      exact ⟨fun hb => ih (hd.trans hdb) (hbusy hb), fun _ => inside_throw (hd.trans hdb)⟩
    · obtain rfl : t' = t.putEvent row := by simpa using ht.symm
      exact inside_pure (hd.trans hdb) hx ⟨rfl, rfl⟩

private theorem writeEvent_atomic {row : SpendEventRow} (n : ℕ) {last : Option SqlError}
    {c : Connection RailTables} (hdb : c.db = t) (htx : c.tx = none) :
    wp (writeEvent row n last) (Atomic t fun b t' => b = true ∧ t' = t.putEvent row) c := by
  induction n generalizing c last with
  | zero =>
    cases last with
    | none => exact atomic_panic hdb
    | some e => exact atomic_throw hdb htx
  | succ n ih =>
    rw [writeEvent, wp_bind, sql, wp_mapErr, wp_attempt]
    refine wp_statement_auto htx (fun e d hd hx => ?_) fun _ t' d ht hd hx => ?_
    · simp only [Post.ofOk]
      rw [wp_ite]
      exact ⟨fun _ => ih (hd.trans hdb) hx, fun _ => atomic_throw (hd.trans hdb) hx⟩
    · obtain rfl : t' = c.db.putEvent row := by simpa using ht.symm
      exact (wp_pure ..).mpr ⟨hx, rfl, hd.trans (by rw [hdb])⟩

variable [UnicodeCase]

private theorem recordSpendEventOn_inside {ev : SpendEvent} (hdb : c.db = db)
    (htx : c.tx = some t) :
    wp (recordSpendEventOn ev)
      (Inside db fun b t' => if b then Records t ev t' else t = t') c := by
  unfold recordSpendEventOn
  rw [wp_ite]
  refine ⟨fun _ => inside_pure hdb htx (by simp), fun _ => ?_⟩
  rw [wp_ite]
  refine ⟨fun _ => inside_pure hdb htx (by simp), fun hpos => ?_⟩
  rw [wp_bind, wp_ofExcept]
  refine ⟨fun json _ => ?_, fun _ _ => hdb⟩
  refine wp_mono (writeEvent_inside 3 hdb htx) ?_ (fun _ _ h => h) fun _ h => h
  rintro b d ⟨hd, t', hx, rfl, rfl⟩
  exact ⟨hd, _, hx, _, rfl, rfl, rfl, not_le.mp hpos, rfl⟩

private theorem recordSpendEventOn_atomic {ev : SpendEvent} (hdb : c.db = t)
    (htx : c.tx = none) :
    wp (recordSpendEventOn ev)
      (Atomic t fun b t' => if b then Records t ev t' else t = t') c := by
  unfold recordSpendEventOn
  rw [wp_ite]
  refine ⟨fun _ => atomic_pure hdb htx (by simp), fun _ => ?_⟩
  rw [wp_ite]
  refine ⟨fun _ => atomic_pure hdb htx (by simp), fun hpos => ?_⟩
  rw [wp_bind, wp_ofExcept]
  refine ⟨fun json _ => ?_, fun _ _ => ⟨htx, hdb⟩⟩
  refine wp_mono (writeEvent_atomic 3 hdb htx) ?_ (fun _ _ h => h) fun _ h => h
  rintro b d ⟨hx, rfl, hd⟩
  exact ⟨hx, _, rfl, rfl, rfl, not_le.mp hpos, hd⟩

end Settle

/-- A settlement takes effect as one change: the active row turns spent, and with an event
requested the event stands beside it. -/
def Settles (t : RailTables) (reservationId : String) (actual : Option ℤ) (recordEvent : Bool)
    (now : ℤ) (t' : RailTables) : Prop :=
  ∃ row, t.spendReservations.find? (trim reservationId) = some row ∧ row.status = .active ∧
    if recordEvent then
      ∃ e : SpendEventRow, e.eventId = "resv:" ++ trim reservationId ∧
        e.amountSats = sanitizeAmount (actual.getD row.reservedSats) ∧ e.timestamp = now ∧
        0 < e.amountSats ∧
        t' = (t.flipSpend (fun r => r.reservationId = trim reservationId) .spent).putEvent e
    else t' = t.flipSpend (fun r => r.reservationId = trim reservationId) .spent

def SettlesTx (t : RailTables) (reservationId : String) (actual : Option ℤ) (recordEvent : Bool)
    (now : ℤ) : MarkSpentTx → RailTables → Prop
  | .applied true, t' => Settles t reservationId actual recordEvent now t'
  | .applied false, t' => t' = t
  | .eventRejected, _ => True

private theorem trim_resv {rid : String} (h : trim rid ≠ "") :
    trim ("resv:" ++ trim rid) = "resv:" ++ trim rid := by
  have hp : "resv:".toList = 'r' :: ['e', 's', 'v', ':'] := by decide
  exact trim_append hp (by decide) h

section Settle

variable [UnicodeCase] {t db : RailTables} {c : Connection RailTables}

private theorem settlementEvent_spec {rid : String} {q : SpendReservation} {actual : Option ℤ}
    {source : Option String} {now : ℤ} (hne : trim rid ≠ "")
    (hq : t.spendReservations.find? (trim rid) = some q) (hs : q.status = .active)
    (hdb : c.db = db)
    (htx : c.tx = some (t.flipSpend (fun r => r.reservationId = trim rid) .spent)) :
    wp (do
      if ← recordSpendEventOn (settlementEvent (trim rid) q actual source now) then
        pure (MarkSpentTx.applied true)
      else pure .eventRejected) (Inside db (SettlesTx t rid actual true now)) c := by
  have hrec : wp (recordSpendEventOn (settlementEvent (trim rid) q actual source now))
      (Inside db _) c := recordSpendEventOn_inside hdb htx
  refine inside_bind hrec ?_
  rintro (_ | _) t' d h hdb htx
  · exact inside_pure hdb htx trivial
  · obtain ⟨e, hid, ham, hts, hp, rfl⟩ := h
    refine inside_pure hdb htx (show Settles t rid actual true now _ from ⟨q, hq, hs, ?_⟩)
    refine ⟨e, ?_, ?_, hts, hp, rfl⟩
    · rw [hid]
      exact trim_resv hne
    · rw [ham]
      exact sanitizeAmount_idem _

private theorem markSpentInTx_spec {rid : String} {actual : Option ℤ} {source : Option String}
    {recordEvent : Bool} {now : ℤ} (hdb : c.db = db) (htx : c.tx = some t)
    (hne : trim rid ≠ "") :
    wp (markSpentInTx (trim rid) actual source recordEvent now)
      (Inside db (SettlesTx t rid actual recordEvent now)) c := by
  unfold markSpentInTx
  rw [trim_trim, if_neg hne]
  refine inside_query hdb htx fun found d hf hdb htx => ?_
  obtain rfl := Except.ok.inj hf
  cases hq : t.spendReservations.find? (trim rid) with
  | none => exact inside_pure hdb htx rfl
  | some row =>
    refine inside_statement hdb htx fun n t' d hn hdb htx => ?_
    obtain ⟨rfl, rfl⟩ := Prod.mk.inj (Except.ok.inj hn)
    by_cases hpos : 0 < t.countSpend fun r => r.reservationId = trim rid
    · obtain ⟨q, hq', hs⟩ := countSpend_id_pos.mp hpos
      obtain rfl : q = row := Option.some.inj (hq'.symm.trans hq)
      cases recordEvent with
      | false =>
        have hset : Settles t rid actual false now _ := ⟨q, hq, hs, rfl⟩
        simp only [Bool.false_eq_true, and_false, if_false, hpos, decide_true]
        exact inside_pure hdb htx hset
      | true =>
        simp only [hpos, and_self, if_true, decide_true]
        exact settlementEvent_spec hne hq hs hdb htx
    · simp only [hpos, false_and, if_false, decide_false]
      exact inside_pure hdb htx (flipSpend_of_none (by omega))

theorem markSpendReservationSpent_spec {id : String} {actual : Option ℤ} {source : Option String}
    {recordEvent : Bool} {now : ℤ} {faults : List (Option Fault)} :
    wp (markSpendReservationSpent id actual source recordEvent now)
      (Atomic t fun b t' => if b then Settles t id actual recordEvent now t' else t' = t)
      ⟨t, none, faults⟩ := by
  unfold markSpendReservationSpent
  rw [wp_ite]
  refine ⟨fun _ => atomic_pure rfl rfl rfl, fun hne => ?_⟩
  refine atomic_begin rfl rfl fun d hdb htx => ?_
  refine atomic_attempt (markSpentInTx_spec hdb htx hne) ?_ fun e d hdb => ?_
  · rintro (b | _) t' d h hdb htx
    · refine atomic_commit hdb htx fun d hd hx => (wp_pure ..).mpr ⟨hx, ?_⟩
      rw [hd]
      cases b <;> exact h
    · exact atomic_rollback hdb htx fun d hd hx => atomic_pure hd hx rfl
  · exact atomic_rollbackQuietly hdb fun d hd hx => atomic_throw hd hx

end Settle

section Reserve

variable [UnicodeCase] {t : RailTables}

def ReservesFor (t : RailTables) (req : ReserveRequest) (now : ℤ) (a : Bool × ℤ)
    (t' : RailTables) : Prop :=
  if a.1 then
    ∃ row : SpendReservation, row.reservationId = trim req.reservationId ∧ row.status = .active ∧
      row.reservedSats = sanitizeAmount req.amountSats ∧ 0 < row.reservedSats ∧
      row.reservedAt = now ∧ row.category = toLowercase (trim req.category) ∧
      t' = t.putReservation row ∧
      Grants t req (req.sinceTimestamp.getD (now - 24 * 3600)) row a.2
  else t' = t

theorem reservesFor_of_reserves {req : ReserveRequest} {now : ℤ} {metaJson : Option String}
    {a : Bool × ℤ} {t' : RailTables} (hpos : 0 < sanitizeAmount req.amountSats)
    (h : Reserves t req (req.sinceTimestamp.getD (now - 24 * 3600))
      (reservationRow req (trim req.reservationId) (toLowercase (trim req.category))
        (sanitizeAmount req.amountSats) metaJson now) a t') : ReservesFor t req now a t' := by
  rcases a with ⟨granted, remaining⟩
  cases granted with
  | false => exact h
  | true =>
    refine ⟨reservationRow req (trim req.reservationId) (toLowercase (trim req.category))
      (sanitizeAmount req.amountSats) metaJson now, rfl, rfl, rfl, hpos, rfl, rfl, h⟩

theorem reserveSpend_spec {req : ReserveRequest} {now : ℤ} {faults : List (Option Fault)} :
    wp (reserveSpend req now) (Atomic t (ReservesFor t req now)) ⟨t, none, faults⟩ := by
  unfold reserveSpend
  rw [wp_ite]
  refine ⟨fun _ => atomic_pure rfl rfl rfl, fun hpos => ?_⟩
  rw [wp_ite]
  refine ⟨fun _ => atomic_pure rfl rfl rfl, fun _ => ?_⟩
  rw [wp_ite]
  refine ⟨fun _ => atomic_pure rfl rfl rfl, fun _ => ?_⟩
  rw [wp_bind, wp_ofExcept]
  refine ⟨fun metaJson _ => ?_, fun _ _ => ⟨rfl, rfl⟩⟩
  refine atomic_checked rfl fun dayAgo hday => ?_
  obtain rfl := checkedI64_eq hday
  refine atomic_begin rfl rfl fun d hdb htx => ?_
  refine atomic_attempt (reserveSpendBody_spec hdb htx) ?_ fun e d hdb => ?_
  · rintro ⟨granted, remaining⟩ t' d h hdb htx
    refine atomic_commit hdb htx fun d hd hx => ?_
    rw [wp_ofExcept]
    refine ⟨?_, by simp⟩
    rintro a ⟨rfl⟩
    refine ⟨hx, ?_⟩
    rw [hd]
    exact reservesFor_of_reserves (not_le.mp hpos) h
  · refine atomic_rollbackQuietly hdb fun d hd hx => ?_
    rw [wp_ofExcept]
    exact ⟨by simp, fun _ _ => ⟨hx, hd⟩⟩

end Reserve

inductive Call where
  | reserveSpend (req : ReserveRequest) (now : ℤ)
  | reserveBudget (reservationId : String) (amountSats : ℤ) (channelId : String)
      (budgetLimit sinceTimestamp : ℤ) (weeklyBudgetLimit weeklySinceTimestamp : Option ℤ) (now : ℤ)
  | releaseSpendReservation (reservationId : String)
  | releaseBudgetReservation (reservationId : String)
  | markSpendReservationSpent (reservationId : String) (actualSpentSats : Option ℤ)
      (source : Option String) (recordEvent : Bool) (now : ℤ)
  | markBudgetSpent (reservationId : String) (actualSpent : ℤ)
  | recordSpendEvent (ev : SpendEvent)
  | cleanupStaleReservations (maxAgeSeconds now : ℤ)
  | cleanupStaleSpendReservations (maxAgeSeconds : ℤ) (category : Option String) (now : ℤ)
  | clearAllReservations

inductive Reply where
  | decision (granted : Bool) (remaining : ℤ)
  | flag (b : Bool)
  | count (n : ℤ)
  | cleared (stats : ClearStats)
  | unit
  deriving DecidableEq

def budgetRequest (reservationId : String) (amountSats : ℤ) (channelId : String)
    (budgetLimit sinceTimestamp : ℤ) (weeklyBudgetLimit weeklySinceTimestamp : Option ℤ) :
    ReserveRequest where
  reservationId := reservationId
  amountSats := amountSats
  category := "rebalance"
  channelId := some channelId
  effectiveBudgetSats := some budgetLimit
  sinceTimestamp := some sinceTimestamp
  weeklyBudgetLimit := weeklyBudgetLimit
  weeklySinceTimestamp := weeklySinceTimestamp

section Calls

variable [UnicodeCase] {t : RailTables}

def exec : Call → Rail Reply
  | .reserveSpend req now => do
    let a ← reserveSpend req now
    pure (.decision a.1 a.2)
  | .reserveBudget id amount channel limit since weekly weeklySince now => do
    let a ← reserveBudget id amount channel limit since weekly weeklySince now
    pure (.decision a.1 a.2)
  | .releaseSpendReservation id => do pure (.flag (← releaseSpendReservation id))
  | .releaseBudgetReservation id => do pure (.flag (← releaseBudgetReservation id))
  | .markSpendReservationSpent id actual source recordEvent now => do
    pure (.flag (← markSpendReservationSpent id actual source recordEvent now))
  | .markBudgetSpent id actual => do pure (.flag (← markBudgetSpent id actual))
  | .recordSpendEvent ev => do
    recordSpendEvent ev
    pure .unit
  | .cleanupStaleReservations maxAge now => do pure (.count (← cleanupStaleReservations maxAge now))
  | .cleanupStaleSpendReservations maxAge category now => do
    pure (.count (← cleanupStaleSpendReservations maxAge category now))
  | .clearAllReservations => do pure (.cleared (← clearAllReservations))

/-- The dual-path wrappers fall back to the legacy row when the unified ledger has none. -/
def LegacyFlip (t : RailTables) (id : String) (s : Status) (b : Bool) (t' : RailTables) : Prop :=
  b = decide (0 < t.countLegacy fun r => r.reservationId = id) ∧
    t' = t.flipLegacy (fun r => r.reservationId = id) s

def Effect (t : RailTables) : Call → Reply → RailTables → Prop
  | .reserveSpend req now, .decision b r, t' => ReservesFor t req now (b, r) t'
  | .reserveBudget id amount channel limit since weekly weeklySince now, .decision b r, t' =>
    ReservesFor t (budgetRequest id amount channel limit since weekly weeklySince) now (b, r) t'
  | .releaseSpendReservation id, .flag b, t' =>
    b = decide (0 < t.countSpend fun r => r.reservationId = id) ∧
      t' = t.flipSpend (fun r => r.reservationId = id) .released
  | .releaseBudgetReservation id, .flag b, t' =>
    (b = true ∧ 0 < (t.countSpend fun r => r.reservationId = id) ∧
      t' = t.flipSpend (fun r => r.reservationId = id) .released) ∨ LegacyFlip t id .released b t'
  | .markSpendReservationSpent id actual _ recordEvent now, .flag b, t' =>
    if b then Settles t id actual recordEvent now t' else t' = t
  | .markBudgetSpent id actual, .flag b, t' =>
    (b = true ∧ Settles t id (some actual) false 0 t') ∨ LegacyFlip t id .spent b t'
  | .recordSpendEvent ev, .unit, t' => Records t ev t'
  | .cleanupStaleReservations maxAge now, .count _, t' =>
    ∃ parked, t.parkedIds = .ok parked ∧
      let swept := t.flipLegacy
        (fun r => r.reservedAt < now - maxAge ∧ r.reservationId ∉ parked) .released
      t' = swept ∨ t' = swept.flipSpend (fun r => r.category = "rebalance" ∧
        r.reservedAt < now - maxAge ∧ r.reservationId ∉ parked) .released
  | .cleanupStaleSpendReservations maxAge category now, .count _, t' =>
    t' = t.flipSpend (fun r => r.reservedAt < now - maxAge ∧ sweepable category r) .released
  | .clearAllReservations, .cleared _, t' => t' = t.flipLegacy (fun _ => true) .released
  | _, _, _ => False

omit [UnicodeCase] in
theorem wp_reply {α : Type} {m : Rail α} {f : α → Reply} {R : α → RailTables → Prop}
    {S : Reply → RailTables → Prop} {faults : List (Option Fault)}
    (h : wp m (Atomic t R) ⟨t, none, faults⟩) (hS : ∀ a t', R a t' → S (f a) t') :
    wp (m >>= fun a => pure (f a)) (Atomic t S) ⟨t, none, faults⟩ := by
  rw [wp_bind]
  exact wp_mono h (fun a d h => (wp_pure ..).mpr ⟨h.1, hS a d.db h.2⟩) (fun _ _ h => h) fun _ h => h

omit [UnicodeCase] in
theorem releaseSpend_spec {id : String} {faults : List (Option Fault)} :
    wp (releaseSpendReservation id) (Atomic t fun b t' =>
      b = decide (0 < t.countSpend fun r => r.reservationId = id) ∧
        t' = t.flipSpend (fun r => r.reservationId = id) .released) ⟨t, none, faults⟩ := by
  refine atomic_statement rfl rfl fun n t' d hn hd hx => ?_
  obtain ⟨rfl, rfl⟩ := Prod.mk.inj (Except.ok.inj hn)
  exact (wp_pure ..).mpr ⟨hx, rfl, hd⟩

omit [UnicodeCase] in
/-- The fallback starts on unchanged tables, because the first path found nothing. -/
private theorem legacyFlip_spec {id : String} {s : Status} {c : Connection RailTables}
    (hdb : c.db = t) (htx : c.tx = none) :
    wp (do
      let n ← sql (updateLegacy (fun r => r.reservationId = id) s)
      pure (decide (0 < n))) (Atomic t (LegacyFlip t id s)) c := by
  refine atomic_statement hdb htx fun n t' d hn hd hx => ?_
  obtain ⟨rfl, rfl⟩ := Prod.mk.inj (Except.ok.inj hn)
  exact (wp_pure ..).mpr ⟨hx, rfl, hd⟩

private theorem releaseBudget_spec {id : String} {faults : List (Option Fault)} :
    wp (releaseBudgetReservation id) (Atomic t fun b t' =>
      (b = true ∧ 0 < (t.countSpend fun r => r.reservationId = id) ∧
        t' = t.flipSpend (fun r => r.reservationId = id) .released) ∨
        LegacyFlip t id .released b t') ⟨t, none, faults⟩ := by
  unfold releaseBudgetReservation
  rw [wp_bind]
  refine wp_mono releaseSpend_spec ?_ (fun _ _ h => h) fun _ h => h
  rintro b d ⟨hx, rfl, hd⟩
  simp only [Post.ofOk, wp_ite, decide_eq_true_eq]
  refine ⟨fun hpos => (wp_pure ..).mpr ⟨hx, Or.inl ⟨rfl, hpos, hd⟩⟩, fun hnone => ?_⟩
  rw [flipSpend_of_none (by omega)] at hd
  refine wp_mono (legacyFlip_spec hd hx) ?_ (fun _ _ h => h) fun _ h => h
  exact fun b d h => ⟨h.1, Or.inr h.2⟩

private theorem markBudgetSpent_spec {id : String} {actual : ℤ} {faults : List (Option Fault)} :
    wp (markBudgetSpent id actual) (Atomic t fun b t' =>
      (b = true ∧ Settles t id (some actual) false 0 t') ∨ LegacyFlip t id .spent b t')
      ⟨t, none, faults⟩ := by
  unfold markBudgetSpent
  rw [wp_bind]
  refine wp_mono markSpendReservationSpent_spec ?_ (fun _ _ h => h) fun _ h => h
  rintro (_ | _) d ⟨hx, h⟩
  · simp only [Post.ofOk, Bool.false_eq_true, if_false]
    refine wp_mono (legacyFlip_spec h hx) ?_ (fun _ _ h => h) fun _ h => h
    exact fun b d h => ⟨h.1, Or.inr h.2⟩
  · simp only [Post.ofOk, if_true]
    exact (wp_pure ..).mpr ⟨hx, Or.inl ⟨rfl, h⟩⟩

private theorem recordSpendEvent_spec {ev : SpendEvent} {faults : List (Option Fault)} :
    wp (recordSpendEvent ev) (Atomic t fun _ t' => Records t ev t') ⟨t, none, faults⟩ := by
  unfold recordSpendEvent
  rw [wp_bind]
  refine wp_mono (recordSpendEventOn_atomic rfl rfl) ?_ (fun _ _ h => h) fun _ h => h
  rintro (_ | _) d ⟨hx, h⟩
  · simp only [Post.ofOk, Bool.false_eq_true, if_false]
    exact atomic_throw h.symm hx
  · simp only [Post.ofOk, if_true]
    exact (wp_pure ..).mpr ⟨hx, h⟩

omit [UnicodeCase] in
private theorem parked_cases {α : Type} {f : List String → α} {a : α}
    (h : (do let parked ← t.parkedIds; pure (f parked)) = Except.ok a) :
    ∃ parked, t.parkedIds = .ok parked ∧ f parked = a := by
  cases hp : t.parkedIds with
  | error e => simp [hp, bind, Except.bind] at h
  | ok parked =>
    refine ⟨parked, rfl, ?_⟩
    simpa [hp, bind, Except.bind, pure, Except.pure] using h

private theorem cleanupStaleReservations_spec {maxAge now : ℤ} {faults : List (Option Fault)} :
    wp (cleanupStaleReservations maxAge now) (Atomic t fun n t' =>
      Effect t (.cleanupStaleReservations maxAge now) (.count n) t') ⟨t, none, faults⟩ := by
  refine atomic_checked rfl fun cutoff hc => ?_
  obtain rfl := checkedI64_eq hc
  refine atomic_statement rfl rfl fun n t' d hn hd hx => ?_
  obtain ⟨parked, hparked, h⟩ := parked_cases hn
  obtain ⟨rfl, rfl⟩ := Prod.mk.inj h
  rw [wp_bind, sql, wp_mapErr, wp_attempt]
  refine wp_statement_auto hx (fun e d' hd' hx' => ?_) fun m t'' d' hm hd' hx' => ?_
  · exact (wp_pure ..).mpr ⟨hx', parked, hparked, Or.inl (hd'.trans hd)⟩
  · rw [hd] at hm
    obtain ⟨parked', hparked', h⟩ := parked_cases hm
    obtain rfl : parked = parked' := Except.ok.inj (hparked.symm.trans hparked')
    obtain ⟨rfl, rfl⟩ := Prod.mk.inj h
    exact (wp_pure ..).mpr ⟨hx', parked, hparked, Or.inr hd'⟩

private theorem cleanupStaleSpendReservations_spec {maxAge now : ℤ} {category : Option String}
    {faults : List (Option Fault)} :
    wp (cleanupStaleSpendReservations maxAge category now) (Atomic t fun n t' =>
      Effect t (.cleanupStaleSpendReservations maxAge category now) (.count n) t')
      ⟨t, none, faults⟩ := by
  refine atomic_checked rfl fun cutoff hc => ?_
  obtain rfl := checkedI64_eq hc
  refine atomic_statement rfl rfl fun n t' d hn hd hx => ?_
  obtain ⟨rfl, rfl⟩ := Prod.mk.inj (Except.ok.inj hn)
  exact (wp_pure ..).mpr ⟨hx, hd⟩

private theorem clearAllReservations_spec {faults : List (Option Fault)} :
    wp clearAllReservations (Atomic t fun stats t' =>
      Effect t .clearAllReservations (.cleared stats) t') ⟨t, none, faults⟩ := by
  refine atomic_begin rfl rfl fun d hdb htx => ?_
  have herr : ∀ (e : BudgetError) (d : Connection RailTables), d.db = t →
      wp (do rollbackQuietly; Eff.throw e) (Atomic t fun stats t' =>
        Effect t .clearAllReservations (.cleared stats) t') d := fun e d hd =>
    atomic_rollbackQuietly hd fun d hd hx => atomic_throw hd hx
  rw [wp_bind, wp_attempt, wp_bind, sql, wp_mapErr]
  refine wp_query_tx htx ?_ fun stats d₁ _ hd₁ hx₁ => ?_
  · exact fun e d hd => herr (.sqlite e) d (hd.trans hdb)
  simp only [Post.ofOk]
  rw [wp_bind, sql, wp_mapErr]
  refine wp_statement_tx hx₁ ?_ fun n t' d₂ hn hd₂ hx₂ => ?_
  · exact fun e d hd _ => herr (.sqlite e) d (hd.trans (hd₁.trans hdb))
  obtain ⟨rfl, rfl⟩ := Prod.mk.inj (Except.ok.inj hn)
  have hdb₂ : d₂.db = t := hd₂.trans (hd₁.trans hdb)
  simp only [Post.ofOk]
  rw [wp_bind, sql, wp_mapErr]
  refine wp_commit hx₂ ?_ fun d hd hx => ?_
  · exact fun e d hd _ => herr (.sqlite e) d (hd.trans hdb₂)
  · exact (wp_pure ..).mpr ((wp_pure ..).mpr ⟨hx, hd⟩)

theorem exec_spec (call : Call) (faults : List (Option Fault)) :
    wp (exec call) (Atomic t (Effect t call)) ⟨t, none, faults⟩ := by
  cases call with
  | reserveSpend => exact wp_reply reserveSpend_spec fun _ _ h => h
  | reserveBudget => exact wp_reply reserveSpend_spec fun _ _ h => h
  | releaseSpendReservation => exact wp_reply releaseSpend_spec fun _ _ h => h
  | releaseBudgetReservation => exact wp_reply releaseBudget_spec fun _ _ h => h
  | markSpendReservationSpent =>
    exact wp_reply markSpendReservationSpent_spec fun _ _ h => h
  | markBudgetSpent => exact wp_reply markBudgetSpent_spec fun _ _ h => h
  | recordSpendEvent ev => exact wp_reply recordSpendEvent_spec fun _ _ h => h
  | cleanupStaleReservations => exact wp_reply cleanupStaleReservations_spec fun _ _ h => h
  | cleanupStaleSpendReservations =>
    exact wp_reply cleanupStaleSpendReservations_spec fun _ _ h => h
  | clearAllReservations => exact wp_reply clearAllReservations_spec fun _ _ h => h

def perform (t : RailTables) (call : Call) (faults : List (Option Fault)) :
    Outcome BudgetError Reply × RailTables :=
  SqlTransaction.call (exec call) faults t

/-- A call that returns a reply acts as its effect says; any other leaves the tables alone. -/
theorem perform_cases (t : RailTables) (call : Call) (faults : List (Option Fault)) :
    (∃ reply, (perform t call faults).1 = .ok reply ∧
        Effect t call reply (perform t call faults).2) ∨
      ((∀ reply, (perform t call faults).1 ≠ .ok reply) ∧ (perform t call faults).2 = t) :=
  call_atomic faults (exec_spec call faults)

end Calls

end BudgetRail
