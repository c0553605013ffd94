import RevenueOps.BudgetRailCalls

/-! The life of one reservation over whole runs of the rail.
A run may start on any tables; rows from before the unified ledger may still be active. -/
namespace BudgetRail

open FallibleState SqlTransaction KeyedTable RustText RailTables

def Terminal (s : Status) : Prop := s = .spent ∨ s = .released

instance (s : Status) : Decidable (Terminal s) :=
  inferInstanceAs (Decidable (s = .spent ∨ s = .released))

def TerminalId (t : RailTables) (rid : String) : Prop :=
  ∃ q, t.spendReservations.find? rid = some q ∧ Terminal q.status

namespace RailTables

@[simp] theorem find_flipSpend (t : RailTables) (p : SpendReservation → Bool) (s : Status)
    (rid : String) :
    (t.flipSpend p s).spendReservations.find? rid =
      (t.spendReservations.find? rid).map fun r =>
        if spendActive r && p r then { r with status := s } else r := by
  rw [flipSpend, find_updateWhere]

@[simp] theorem flipLegacy_spendReservations (t : RailTables) (p : BudgetReservation → Bool)
    (s : Status) : (t.flipLegacy p s).spendReservations = t.spendReservations := rfl

@[simp] theorem putEvent_spendReservations (t : RailTables) (e : SpendEventRow) :
    (t.putEvent e).spendReservations = t.spendReservations := rfl

@[simp] theorem find_putReservation (t : RailTables) (row : SpendReservation) (rid : String) :
    (t.putReservation row).spendReservations.find? rid =
      if row.reservationId = rid then some row else t.spendReservations.find? rid :=
  find_insertOrReplace ..

@[simp] theorem countLegacy_flipSpend (t : RailTables) (p : SpendReservation → Bool) (s : Status)
    (q : BudgetReservation → Bool) : (t.flipSpend p s).countLegacy q = t.countLegacy q := rfl

@[simp] theorem countLegacy_putEvent (t : RailTables) (e : SpendEventRow)
    (q : BudgetReservation → Bool) : (t.putEvent e).countLegacy q = t.countLegacy q := rfl

@[simp] theorem countLegacy_putReservation (t : RailTables) (row : SpendReservation)
    (q : BudgetReservation → Bool) : (t.putReservation row).countLegacy q = t.countLegacy q := rfl

/-- Flipping active rows takes exactly the selected ones out of every count. -/
theorem countLegacy_flipLegacy (t : RailTables) (p q : BudgetReservation → Bool) {s : Status}
    (hs : s ≠ .active) :
    (t.flipLegacy p s).countLegacy q + t.countLegacy (fun r => p r && q r) = t.countLegacy q := by
  have hpq : (fun r => legacyActive r && (p r && q r)) =
      fun r => (legacyActive r && q r) && (legacyActive r && p r) := by
    funext r
    cases legacyActive r <;> cases p r <;> cases q r <;> rfl
  simp only [countLegacy, flipLegacy, hpq]
  apply countP_updateWhere_out
  intro r _
  simp [legacyActive, hs]

end RailTables

theorem effect_keeps_terminal {t t' : RailTables} {call : Call} {reply : Reply} {rid : String}
    {q : SpendReservation} [UnicodeCase] (h : Effect t call reply t')
    (hq : t.spendReservations.find? rid = some q) (hs : Terminal q.status) :
    t'.spendReservations.find? rid = some q := by
  have hflip : ∀ (u : RailTables) (p : SpendReservation → Bool) (s : Status),
      u.spendReservations.find? rid = some q →
        (u.flipSpend p s).spendReservations.find? rid = some q := by
    intro u p s hu
    have hna : spendActive q = false := by
      rcases hs with hs | hs <;> simp [spendActive, hs]
    simp [hu, hna]
  have hreserve : ∀ req now b r, ReservesFor t req now (b, r) t' →
      t'.spendReservations.find? rid = some q := by
    intro req now b r hr
    cases b with
    | false => rw [show t' = t from hr]; exact hq
    | true =>
      obtain ⟨row, -, -, -, -, -, -, rfl, hg⟩ := hr
      have hne : row.reservationId ≠ rid := by
        intro he
        have hn := hg.notTerminal q (by rw [he, hq])
        rcases hs with hs | hs
        · exact hn.1 hs
        · exact hn.2 hs
      simpa [hne] using hq
  have hsettle : ∀ id actual ev now, Settles t id actual ev now t' →
      t'.spendReservations.find? rid = some q := by
    rintro id actual ev now ⟨row, hrow, ha, hev⟩
    cases ev with
    | false => rw [show t' = _ from hev]; exact hflip t _ _ hq
    | true =>
      obtain ⟨e, -, -, -, -, rfl⟩ := hev
      exact hflip t _ _ hq
  cases call <;> cases reply <;> try exact h.elim
  case reserveSpend.decision => exact hreserve _ _ _ _ h
  case reserveBudget.decision => exact hreserve _ _ _ _ h
  case releaseSpendReservation.flag => rw [h.2]; exact hflip t _ _ hq
  case releaseBudgetReservation.flag =>
    rcases h with ⟨-, -, rfl⟩ | ⟨-, rfl⟩
    · exact hflip t _ _ hq
    · exact hq
  case markSpendReservationSpent.flag b =>
    cases b with
    | false => rw [show t' = t from h]; exact hq
    | true => exact hsettle _ _ _ _ h
  case markBudgetSpent.flag =>
    rcases h with ⟨-, h⟩ | ⟨-, rfl⟩
    · exact hsettle _ _ _ _ h
    · exact hq
  case recordSpendEvent.unit => obtain ⟨e, -, -, -, -, rfl⟩ := h; exact hq
  case cleanupStaleReservations.count =>
    obtain ⟨parked, -, rfl | rfl⟩ := h
    · exact hq
    · exact hflip _ _ _ hq
  case cleanupStaleSpendReservations.count => rw [show t' = _ from h]; exact hflip t _ _ hq
  case clearAllReservations.cleared => rw [show t' = _ from h]; exact hq

section Settlements

def settlesId (rid : String) : Call → Bool
  | .markSpendReservationSpent id _ _ _ _ => trim id = rid
  | .markBudgetSpent id _ => trim id = rid
  | _ => false

def legacyActiveUnder (t : RailTables) (rid : String) : ℕ :=
  t.countLegacy fun r => trim r.reservationId = rid

instance (t : RailTables) (rid : String) : Decidable (TerminalId t rid) :=
  match h : t.spendReservations.find? rid with
  | none => isFalse (by simp [TerminalId, h])
  | some q => decidable_of_iff (Terminal q.status) (by simp [TerminalId, h])

/-- How many settlements of the id are still possible: one on the unified ledger until its row
is terminal, and one for each active legacy row. -/
def settlementsLeft (t : RailTables) (rid : String) : ℕ :=
  legacyActiveUnder t rid + if TerminalId t rid then 0 else 1

theorem settlementsLeft_congr {t t' : RailTables} {rid : String}
    (hterm : TerminalId t rid → TerminalId t' rid)
    (hlegacy : legacyActiveUnder t' rid ≤ legacyActiveUnder t rid) :
    settlementsLeft t' rid ≤ settlementsLeft t rid := by
  unfold settlementsLeft
  by_cases h : TerminalId t rid
  · simp only [h, hterm h, if_true]
    omega
  · simp only [h, if_false]
    split <;> omega

theorem legacyActiveUnder_flipLegacy_le (t : RailTables) (p : BudgetReservation → Bool)
    {s : Status} (hs : s ≠ .active) (rid : String) :
    legacyActiveUnder (t.flipLegacy p s) rid ≤ legacyActiveUnder t rid := by
  have h := countLegacy_flipLegacy t p (fun r => trim r.reservationId = rid) hs
  simp only [legacyActiveUnder]
  omega

private theorem settles_consumes {t t' : RailTables} {id : String} {actual : Option ℤ}
    {ev : Bool} {now : ℤ} (h : Settles t id actual ev now t')
    (hlegacy : legacyActiveUnder t' (trim id) ≤ legacyActiveUnder t (trim id)) :
    settlementsLeft t' (trim id) < settlementsLeft t (trim id) := by
  obtain ⟨row, hrow, ha, hev⟩ := h
  have hopen : ¬TerminalId t (trim id) := by
    rintro ⟨q, hq, hs⟩
    obtain rfl : row = q := Option.some.inj (hrow.symm.trans hq)
    simp [Terminal, ha] at hs
  have hdone : TerminalId t' (trim id) := by
    have hid := find_key hrow
    refine ⟨{ row with status := .spent }, ?_, Or.inl rfl⟩
    cases ev with
    | false =>
      rw [show t' = _ from hev]
      simp [hrow, spendActive, ha, hid]
    | true =>
      obtain ⟨e, -, -, -, -, rfl⟩ := hev
      simp [hrow, spendActive, ha, hid]
  simp only [settlementsLeft, hopen, hdone, if_true, if_false]
  omega

variable [UnicodeCase]

private theorem effect_legacy_le {t t' : RailTables} {call : Call} {reply : Reply}
    (h : Effect t call reply t') (rid : String) :
    legacyActiveUnder t' rid ≤ legacyActiveUnder t rid := by
  have hreserve : ∀ req now b r, ReservesFor t req now (b, r) t' →
      legacyActiveUnder t' rid ≤ legacyActiveUnder t rid := by
    intro req now b r hr
    cases b with
    | false => rw [show t' = t from hr]
    | true =>
      obtain ⟨row, -, -, -, -, -, -, rfl, -⟩ := hr
      exact le_refl _
  have hsettle : ∀ id actual ev now, Settles t id actual ev now t' →
      legacyActiveUnder t' rid ≤ legacyActiveUnder t rid := by
    rintro id actual ev now ⟨row, -, -, hev⟩
    cases ev with
    | false => rw [show t' = _ from hev]; exact le_refl _
    | true =>
      obtain ⟨e, -, -, -, -, rfl⟩ := hev
      exact le_refl _
  have hflip : ∀ (p : BudgetReservation → Bool) (s : Status), s ≠ .active →
      legacyActiveUnder (t.flipLegacy p s) rid ≤ legacyActiveUnder t rid :=
    fun p s hs => legacyActiveUnder_flipLegacy_le t p hs rid
  cases call <;> cases reply <;> try exact h.elim
  case reserveSpend.decision => exact hreserve _ _ _ _ h
  case reserveBudget.decision => exact hreserve _ _ _ _ h
  case releaseSpendReservation.flag => rw [h.2]; exact le_refl _
  case releaseBudgetReservation.flag =>
    rcases h with ⟨-, -, rfl⟩ | ⟨-, rfl⟩
    · exact le_refl _
    · exact hflip _ _ (by decide)
  case markSpendReservationSpent.flag b =>
    cases b with
    | false => rw [show t' = t from h]
    | true => exact hsettle _ _ _ _ h
  case markBudgetSpent.flag =>
    rcases h with ⟨-, h⟩ | ⟨-, rfl⟩
    · exact hsettle _ _ _ _ h
    · exact hflip _ _ (by decide)
  case recordSpendEvent.unit => obtain ⟨e, -, -, -, -, rfl⟩ := h; exact le_refl _
  case cleanupStaleReservations.count =>
    obtain ⟨parked, -, rfl | rfl⟩ := h
    · exact hflip _ _ (by decide)
    · exact hflip _ _ (by decide)
  case cleanupStaleSpendReservations.count => rw [show t' = _ from h]; exact le_refl _
  case clearAllReservations.cleared => rw [show t' = _ from h]; exact hflip _ _ (by decide)

theorem settlementsLeft_mono {t t' : RailTables} {call : Call} {reply : Reply}
    (h : Effect t call reply t') (rid : String) :
    settlementsLeft t' rid ≤ settlementsLeft t rid := by
  refine settlementsLeft_congr ?_ (effect_legacy_le h rid)
  rintro ⟨q, hq, hs⟩
  exact ⟨q, effect_keeps_terminal h hq hs, hs⟩

/-- Each settle call that returns true uses up one of the settlements left for its id. -/
theorem settle_consumes {t t' : RailTables} {call : Call} {rid : String}
    (h : Effect t call (.flag true) t') (hs : settlesId rid call) :
    settlementsLeft t' rid < settlementsLeft t rid := by
  have hlegacy := effect_legacy_le h rid
  cases call <;> simp only [settlesId, Bool.false_eq_true, decide_eq_true_eq] at hs
  case markSpendReservationSpent => exact hs ▸ settles_consumes h (hs ▸ hlegacy)
  case markBudgetSpent id actual =>
    rcases h with ⟨-, h⟩ | ⟨hb, rfl⟩
    · exact hs ▸ settles_consumes h (hs ▸ hlegacy)
    · have hpos : 0 < t.countLegacy fun r => r.reservationId = id := by simpa using hb.symm
      have hsplit := countLegacy_flipLegacy t (fun r => r.reservationId = id)
        (fun r => trim r.reservationId = rid) (s := .spent) (by decide)
      have hsame : (fun r : BudgetReservation =>
          decide (r.reservationId = id) && decide (trim r.reservationId = rid)) =
          fun r => decide (r.reservationId = id) := by
        funext r
        by_cases hr : r.reservationId = id
        · simp [hr, hs]
        · simp [hr]
      rw [hsame] at hsplit
      have hterm : TerminalId (t.flipLegacy (fun r => r.reservationId = id) .spent) rid ↔
          TerminalId t rid := Iff.rfl
      simp only [settlementsLeft, legacyActiveUnder, hterm]
      omega

end Settlements

section Runs

variable [UnicodeCase]

/-- A script names each call of a run with its statement failures. A panic ends the connection,
and the next call finds the committed tables. -/
abbrev Script := List (Call × List (Option Fault))

def run (t : RailTables) : Script → RailTables
  | [] => t
  | (call, faults) :: rest => run (perform t call faults).2 rest

def settleCount (rid : String) (t : RailTables) : Script → ℕ
  | [] => 0
  | (call, faults) :: rest =>
    (if settlesId rid call ∧ (perform t call faults).1.value = some (.flag true) then 1 else 0) +
      settleCount rid (perform t call faults).2 rest

theorem run_keeps_terminal {rid : String} {q : SpendReservation} (hs : Terminal q.status)
    (script : Script) (t : RailTables) (hq : t.spendReservations.find? rid = some q) :
    (run t script).spendReservations.find? rid = some q := by
  induction script generalizing t with
  | nil => exact hq
  | cons c rest ih =>
    apply ih
    rcases perform_cases t c.1 c.2 with ⟨reply, -, he⟩ | ⟨-, he⟩
    · exact effect_keeps_terminal he hq hs
    · rw [he]
      exact hq

theorem settleCount_le (rid : String) (script : Script) (t : RailTables) :
    settleCount rid t script + settlementsLeft (run t script) rid ≤ settlementsLeft t rid := by
  induction script generalizing t with
  | nil => simp [settleCount, run]
  | cons c rest ih =>
    have hrest := ih (perform t c.1 c.2).2
    simp only [settleCount, run]
    rcases perform_cases t c.1 c.2 with ⟨reply, hr, he⟩ | ⟨hr, he⟩
    · split
      · rename_i hc
        obtain rfl := Outcome.ok.inj (hr.symm.trans (value_eq_some.mp hc.2))
        have := settle_consumes he hc.1
        omega
      · have := settlementsLeft_mono he rid
        omega
    · rw [he] at hrest ⊢
      rw [if_neg fun h => hr _ (value_eq_some.mp h.2)]
      omega

def Refused (r : Outcome BudgetError Reply) : Prop :=
  r = .ok (.flag false) ∨ (∃ remaining, r = .ok (.decision false remaining)) ∨
    ∀ reply, r ≠ .ok reply

theorem refused_unchanged {t : RailTables} {call : Call} {faults : List (Option Fault)}
    (h : Refused (perform t call faults).1) : (perform t call faults).2 = t := by
  rcases perform_cases t call faults with ⟨reply, hr, he⟩ | ⟨-, he⟩
  · rw [hr] at h
    rcases h with h | ⟨remaining, h⟩ | h
    · obtain rfl := Outcome.ok.inj h
      cases call <;> try exact he.elim
      case releaseSpendReservation =>
        rw [he.2]
        exact flipSpend_of_none (by simpa using he.1)
      case releaseBudgetReservation =>
        rcases he with ⟨hb, -⟩ | ⟨hb, he⟩
        · simp at hb
        · rw [he]
          exact flipLegacy_of_none (by simpa using hb)
      case markSpendReservationSpent => exact he
      case markBudgetSpent =>
        rcases he with ⟨hb, -⟩ | ⟨hb, he⟩
        · simp at hb
        · rw [he]
          exact flipLegacy_of_none (by simpa using hb)
    · obtain rfl := Outcome.ok.inj h
      cases call <;> first | exact he.elim | exact he
    · exact absurd rfl (h reply)
  · exact he

/-- Over every run from any tables: terminal rows stay as they are, an id settles at most once
on the unified ledger and once for each legacy row that was active under it, a settlement is
committed with its event, and a refused call changes nothing. -/
theorem reservation_lifecycle (t : RailTables) (script : Script) :
    (∀ rid q, t.spendReservations.find? rid = some q → Terminal q.status →
      (run t script).spendReservations.find? rid = some q) ∧
    (∀ rid, settleCount rid t script ≤ 1 + legacyActiveUnder t rid) ∧
    ∀ call faults, let r := perform (run t script) call faults
      (∀ id actual source now, call = .markSpendReservationSpent id actual source true now →
        r.1 = .ok (.flag true) → ∃ q e,
          (run t script).spendReservations.find? (trim id) = some q ∧
          r.2.spendEvents.find? ("resv:" ++ trim id) = some e ∧
          e.amountSats = sanitizeAmount (actual.getD q.reservedSats) ∧ 0 < e.amountSats) ∧
      (Refused r.1 → r.2 = run t script) := by
  refine ⟨fun rid q hq hs => run_keeps_terminal hs script t hq, fun rid => ?_, ?_⟩
  · have h := settleCount_le rid script t
    have hle : settlementsLeft t rid ≤ legacyActiveUnder t rid + 1 := by
      unfold settlementsLeft
      split <;> omega
    omega
  · intro call faults
    refine ⟨?_, refused_unchanged⟩
    rintro id actual source now rfl hok
    rcases perform_cases (run t script) (.markSpendReservationSpent id actual source true now)
      faults with ⟨reply, hr, he⟩ | ⟨hr, -⟩
    · obtain rfl := Outcome.ok.inj (hr.symm.trans hok)
      obtain ⟨q, hq, -, e, hid, ham, -, hpos, ht⟩ := he
      refine ⟨q, e, hq, ?_, ham, hpos⟩
      rw [ht, ← hid]
      simp [putEvent]
    · exact absurd hok (hr _)

end Runs

/-- A row from before unification is still active under an id that the unified ledger takes. -/
def legacyTables : RailTables :=
  { RailTables.empty none with
    budgetReservations := ⟨[⟨"r", 5, 0, "channel", .active⟩], by decide⟩ }

/-- The unified row and the legacy row of one id settle one after the other. -/
theorem legacy_row_settles_again :
    @settleCount ⟨id⟩ "r" legacyTables
      [(.reserveSpend
          { reservationId := "r", amountSats := 10, category := "rebalance" } 100000, []),
        (.markSpendReservationSpent "r" none none true 100001, []),
        (.markBudgetSpent "r" 5, [])] = 2 := by
  decide +kernel

end BudgetRail
