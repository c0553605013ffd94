import RevenueOps.BudgetRailLifecycle

/-! The budget ceiling. A granted reservation leaves the committed total within its limits,
and no other operation of a run under one budget can lift the total. -/
namespace BudgetRail

open FallibleState SqlTransaction KeyedTable RustText RailTables

namespace RailTables

theorem spendHolds_flipSpend (t : RailTables) (p : SpendReservation → Bool) {s : Status}
    (hs : s ≠ .active) :
    (t.flipSpend p s).spendHolds.sum = t.spendHolds.sum -
      t.spendReservations.sumWhere (fun r => spendActive r && (spendActive r && p r))
        SpendReservation.reservedSats := by
  have hf (r : SpendReservation) : { r with status := s }.reservationId = r.reservationId := rfl
  refine sumWhere_updateWhere_out _ hf _ fun r _ => ?_
  simp [spendActive, hs]

theorem legacyHolds_flipLegacy (t : RailTables) (p : BudgetReservation → Bool) {s : Status}
    (hs : s ≠ .active) :
    (t.flipLegacy p s).legacyHolds.sum = t.legacyHolds.sum -
      t.budgetReservations.sumWhere (fun r => legacyActive r && (legacyActive r && p r))
        BudgetReservation.reservedSats := by
  have hf (r : BudgetReservation) : { r with status := s }.reservationId = r.reservationId := rfl
  refine sumWhere_updateWhere_out _ hf _ fun r _ => ?_
  simp [legacyActive, hs]

theorem windowTotal_putReservation (t : RailTables) {row : SpendReservation}
    (h : row.status = .active) (since : ℤ) :
    (t.putReservation row).windowTotal since =
      t.windowTotal since - t.held row.reservationId + row.reservedSats := by
  have hsum := sumWhere_insertOrReplace t.spendReservations row spendActive
    SpendReservation.reservedSats
  have hrow : contribution spendActive SpendReservation.reservedSats (some row) =
      row.reservedSats := by simp [spendActive, h]
  rw [hrow] at hsum
  change (t.putReservation row).spendHolds.sum = t.spendHolds.sum - _ + _ at hsum
  change (t.putReservation row).spendHolds.sum + t.legacyHolds.sum + (t.costsSince since).sum +
    (t.eventsSince since).sum = _
  rw [hsum, windowTotal, held]
  ring

theorem spendHolds_flipSpend_id (t : RailTables) (rid : String) {s : Status} (hs : s ≠ .active) :
    (t.flipSpend (fun r => r.reservationId = rid) s).spendHolds.sum =
      t.spendHolds.sum - t.held rid := by
  rw [spendHolds_flipSpend t _ hs, held, ← sumWhere_key]
  congr 2
  funext r
  cases spendActive r <;> rfl

theorem eventsSince_putEvent (t : RailTables) (e : SpendEventRow) (since : ℤ) :
    ((t.putEvent e).eventsSince since).sum = (t.eventsSince since).sum -
      contribution (eventInWindow since) SpendEventRow.amountSats (t.spendEvents.find? e.eventId) +
      contribution (eventInWindow since) SpendEventRow.amountSats (some e) :=
  sumWhere_insertOrReplace ..

end RailTables

structure NonnegAmounts (t : RailTables) : Prop where
  reservations : ∀ r ∈ t.spendReservations.rows, 0 ≤ r.reservedSats
  legacy : ∀ r ∈ t.budgetReservations.rows, 0 ≤ r.reservedSats
  events : ∀ e ∈ t.spendEvents.rows, 0 ≤ e.amountSats

structure Ceiling (budget since : ℤ) (t : RailTables) : Prop where
  nonneg : NonnegAmounts t
  total : t.windowTotal since ≤ max budget 0

theorem ceiling_empty (budget since : ℤ) (history : Option (List HistoryRow)) :
    Ceiling budget since (RailTables.empty history) :=
  ⟨⟨by simp [RailTables.empty, Table.empty], by simp [RailTables.empty, Table.empty],
    by simp [RailTables.empty, Table.empty]⟩, le_max_right _ _⟩

section Preservation

variable {t : RailTables} {budget since : ℤ}

theorem ceiling_flipSpend (h : Ceiling budget since t) (p : SpendReservation → Bool) {s : Status}
    (hs : s ≠ .active) : Ceiling budget since (t.flipSpend p s) := by
  refine ⟨⟨?_, h.nonneg.legacy, h.nonneg.events⟩, ?_⟩
  · intro r hr
    obtain ⟨q, hq, rfl⟩ := List.mem_map.mp hr
    have := h.nonneg.reservations q hq
    split <;> exact this
  · have hsum := spendHolds_flipSpend t p hs
    have hout : 0 ≤ t.spendReservations.sumWhere
        (fun r => spendActive r && (spendActive r && p r)) SpendReservation.reservedSats :=
      sumWhere_nonneg fun r hr _ => h.nonneg.reservations r hr
    have htotal := h.total
    change (t.flipSpend p s).spendHolds.sum + t.legacyHolds.sum + (t.costsSince since).sum +
      (t.eventsSince since).sum ≤ _
    unfold windowTotal at htotal
    omega

theorem ceiling_flipLegacy (h : Ceiling budget since t) (p : BudgetReservation → Bool)
    {s : Status} (hs : s ≠ .active) : Ceiling budget since (t.flipLegacy p s) := by
  refine ⟨⟨h.nonneg.reservations, ?_, h.nonneg.events⟩, ?_⟩
  · intro r hr
    obtain ⟨q, hq, rfl⟩ := List.mem_map.mp hr
    have := h.nonneg.legacy q hq
    split <;> exact this
  · have hsum := legacyHolds_flipLegacy t p hs
    have hout : 0 ≤ t.budgetReservations.sumWhere
        (fun r => legacyActive r && (legacyActive r && p r)) BudgetReservation.reservedSats :=
      sumWhere_nonneg fun r hr _ => h.nonneg.legacy r hr
    have htotal := h.total
    change t.spendHolds.sum + (t.flipLegacy p s).legacyHolds.sum + (t.costsSince since).sum +
      (t.eventsSince since).sum ≤ _
    unfold windowTotal at htotal
    omega

theorem ceiling_reserve (h : Ceiling budget since t) {req : ReserveRequest}
    {row : SpendReservation} {remaining : ℤ} (hactive : row.status = .active)
    (hpos : 0 < row.reservedSats) (hbudget : req.effectiveBudgetSats = some budget)
    (hg : Grants t req since row remaining) : Ceiling budget since (t.putReservation row) := by
  refine ⟨⟨?_, h.nonneg.legacy, h.nonneg.events⟩, ?_⟩
  · intro r hr
    rcases mem_insertOrReplace.mp hr with rfl | ⟨hr, -⟩
    · exact hpos.le
    · exact h.nonneg.reservations r hr
  · have hroom := hg.daily budget hbudget
    rw [windowTotal_putReservation t hactive]
    unfold room at hroom
    exact le_max_of_le_left (by omega)

/-- A settlement moves at most what the id held from the holds into the window. -/
theorem ceiling_settle (h : Ceiling budget since t) {q : SpendReservation} {rid : String}
    {e : SpendEventRow} (hq : t.spendReservations.find? rid = some q) (hactive : q.status = .active)
    (hle : e.amountSats ≤ q.reservedSats) (hpos : 0 < e.amountSats) :
    Ceiling budget since ((t.flipSpend (fun r => r.reservationId = rid) .spent).putEvent e) := by
  set u := t.flipSpend (fun r => r.reservationId = rid) .spent with hu
  have hc : Ceiling budget since u := ceiling_flipSpend h _ (by decide)
  refine ⟨⟨hc.nonneg.reservations, hc.nonneg.legacy, ?_⟩, ?_⟩
  · intro r hr
    rcases mem_insertOrReplace.mp hr with rfl | ⟨hr, -⟩
    · exact hpos.le
    · exact hc.nonneg.events r hr
  · have hholds : u.spendHolds.sum = t.spendHolds.sum - q.reservedSats := by
      rw [hu, spendHolds_flipSpend_id t rid (by decide)]
      simp [held, hq, spendActive, hactive]
    have hevents := eventsSince_putEvent u e since
    have hold : 0 ≤ contribution (eventInWindow since) SpendEventRow.amountSats
        (u.spendEvents.find? e.eventId) := by
      cases he : u.spendEvents.find? e.eventId with
      | none => exact le_refl _
      | some old =>
        have := hc.nonneg.events old (find_eq_some_iff.mp he).1
        rw [contribution_some]
        split <;> omega
    have hnew : contribution (eventInWindow since) SpendEventRow.amountSats (some e) ≤
        e.amountSats := by
      rw [contribution_some]
      split <;> omega
    have htotal := h.total
    change u.spendHolds.sum + t.legacyHolds.sum + (t.costsSince since).sum +
      ((u.putEvent e).eventsSince since).sum ≤ _
    change _ = (t.eventsSince since).sum - _ + _ at hevents
    unfold windowTotal at htotal
    omega

end Preservation

/-- The calls of a run under one budget and window start, in the state they find. -/
def UnderBudget (budget since : ℤ) (t : RailTables) : Call → Prop
  | .reserveSpend req now =>
    req.effectiveBudgetSats = some budget ∧ req.sinceTimestamp.getD (now - 24 * 3600) = since
  | .reserveBudget _ _ _ limit start _ _ _ => limit = budget ∧ start = since
  | .releaseSpendReservation _ => True
  | .releaseBudgetReservation _ => True
  | .cleanupStaleReservations _ _ => True
  | .cleanupStaleSpendReservations _ _ _ => True
  | .clearAllReservations => True
  | .markSpendReservationSpent id actual _ recordEvent _ => recordEvent = true ∧
    ∀ q a, t.spendReservations.find? (trim id) = some q → actual = some a → a ≤ q.reservedSats
  | .markBudgetSpent _ _ => False
  | .recordSpendEvent _ => False

section Runs

variable [UnicodeCase]

def UnderBudgetRun (budget since : ℤ) (t : RailTables) : Script → Prop
  | [] => True
  | (call, faults) :: rest =>
    UnderBudget budget since t call ∧ UnderBudgetRun budget since (perform t call faults).2 rest

theorem effect_preserves_ceiling {t t' : RailTables} {budget since : ℤ} {call : Call}
    {reply : Reply} (h : Ceiling budget since t) (hcall : UnderBudget budget since t call)
    (he : Effect t call reply t') : Ceiling budget since t' := by
  have hreserve : ∀ req now b r, req.effectiveBudgetSats = some budget →
      req.sinceTimestamp.getD (now - 24 * 3600) = since → ReservesFor t req now (b, r) t' →
      Ceiling budget since t' := by
    intro req now b r hb hs hr
    cases b with
    | false => rw [show t' = t from hr]; exact h
    | true =>
      obtain ⟨row, -, hactive, -, hpos, -, -, rfl, hg⟩ := hr
      exact ceiling_reserve h hactive hpos hb (hs ▸ hg)
  cases call <;> cases reply <;> try exact he.elim
  case reserveSpend.decision => exact hreserve _ _ _ _ hcall.1 hcall.2 he
  case reserveBudget.decision =>
    exact hreserve _ _ _ _ (by simp [budgetRequest, hcall.1]) (by simp [budgetRequest, hcall.2]) he
  case releaseSpendReservation.flag => rw [he.2]; exact ceiling_flipSpend h _ (by decide)
  case releaseBudgetReservation.flag =>
    rcases he with ⟨-, -, rfl⟩ | ⟨-, rfl⟩
    · exact ceiling_flipSpend h _ (by decide)
    · exact ceiling_flipLegacy h _ (by decide)
  case markSpendReservationSpent.flag id actual source recordEvent now b =>
    obtain ⟨rfl, hle⟩ := hcall
    cases b with
    | false => rw [show t' = t from he]; exact h
    | true =>
      obtain ⟨q, hq, hactive, e, -, ham, -, hpos, rfl⟩ := he
      refine ceiling_settle h hq hactive ?_ hpos
      have hnonneg := h.nonneg.reservations q (find_eq_some_iff.mp hq).1
      rw [ham]
      apply sanitizeAmount_le hnonneg
      cases actual with
      | none => exact le_refl _
      | some a => exact hle q a hq rfl
  case markBudgetSpent.flag => exact hcall.elim
  case recordSpendEvent.unit => exact hcall.elim
  case cleanupStaleReservations.count =>
    obtain ⟨parked, -, rfl | rfl⟩ := he
    · exact ceiling_flipLegacy h _ (by decide)
    · exact ceiling_flipSpend (ceiling_flipLegacy h _ (by decide)) _ (by decide)
  case cleanupStaleSpendReservations.count =>
    rw [show t' = _ from he]; exact ceiling_flipSpend h _ (by decide)
  case clearAllReservations.cleared =>
    rw [show t' = _ from he]; exact ceiling_flipLegacy h _ (by decide)

theorem run_preserves_ceiling {budget since : ℤ} (script : Script) (t : RailTables)
    (h : Ceiling budget since t) (hrun : UnderBudgetRun budget since t script) :
    Ceiling budget since (run t script) := by
  induction script generalizing t with
  | nil => exact h
  | cons c rest ih =>
    apply ih _ _ hrun.2
    rcases perform_cases t c.1 c.2 with ⟨reply, -, he⟩ | ⟨-, he⟩
    · exact effect_preserves_ceiling h hrun.1 he
    · rw [he]
      exact h

/-- What a granted reservation leaves: both totals within their limits, and the remaining
headroom told is the smaller one left. -/
theorem reserve_grant {t : RailTables} {req : ReserveRequest} {now budget remaining : ℤ}
    {faults : List (Option Fault)} (hbudget : req.effectiveBudgetSats = some budget)
    (h : (perform t (.reserveSpend req now) faults).1 = .ok (.decision true remaining)) :
    let t' := (perform t (.reserveSpend req now) faults).2
    let left := budget - t'.windowTotal (req.sinceTimestamp.getD (now - 24 * 3600))
    0 ≤ left ∧
      match req.weeklyBudgetLimit, req.weeklySinceTimestamp with
      | some limit, some weeklySince =>
        t'.windowTotal weeklySince ≤ limit ∧
          remaining = min left (limit - t'.windowTotal weeklySince)
      | _, _ => remaining = left := by
  rcases perform_cases t (.reserveSpend req now) faults with ⟨reply, hr, he⟩ | ⟨hr, -⟩
  · obtain rfl := Outcome.ok.inj (hr.symm.trans h)
    obtain ⟨row, -, hactive, -, -, -, -, ht, hg⟩ := he
    have hroom : ∀ limit since, limit - (t.putReservation row).windowTotal since =
        t.room limit since row := by
      intro limit since
      rw [windowTotal_putReservation t hactive, room]
      ring
    have hremaining := hg.remaining
    simp only [hbudget] at hremaining
    rw [ht]
    simp only [hroom]
    refine ⟨hg.daily budget hbudget, ?_⟩
    cases hl : req.weeklyBudgetLimit with
    | none => simpa [hl] using hremaining
    | some limit =>
      cases hw : req.weeklySinceTimestamp with
      | none => simpa [hl, hw] using hremaining
      | some weeklySince =>
        simp only [hl, hw] at hremaining
        have hweekly := hg.weekly budget limit weeklySince hbudget hl hw
        rw [← hroom] at hweekly
        exact ⟨by omega, hremaining⟩
  · exact absurd h (hr _)

/-- The budget ceiling: a grant keeps every limit it was checked against, a refusal changes
nothing, and a run under one budget from empty tables never exceeds it. -/
theorem budget_ceiling :
    (∀ (t : RailTables) (req : ReserveRequest) (now budget : ℤ) (faults : List (Option Fault)),
      req.effectiveBudgetSats = some budget →
        let r := perform t (.reserveSpend req now) faults
        let left := budget - r.2.windowTotal (req.sinceTimestamp.getD (now - 24 * 3600))
        (∀ remaining, r.1 = .ok (.decision true remaining) → 0 ≤ left ∧
          match req.weeklyBudgetLimit, req.weeklySinceTimestamp with
          | some limit, some weeklySince => r.2.windowTotal weeklySince ≤ limit ∧
            remaining = min left (limit - r.2.windowTotal weeklySince)
          | _, _ => remaining = left) ∧
        ∀ remaining, r.1 = .ok (.decision false remaining) → r.2 = t) ∧
    ∀ (budget since : ℤ) (history : Option (List HistoryRow)) (script : Script),
      UnderBudgetRun budget since (RailTables.empty history) script →
        (run (RailTables.empty history) script).windowTotal since ≤ max budget 0 := by
  constructor
  · intro t req now budget faults hbudget
    refine ⟨fun remaining h => reserve_grant hbudget h, fun remaining h => ?_⟩
    exact refused_unchanged (Or.inr (Or.inl ⟨remaining, h⟩))
  · intro budget since history script hrun
    exact (run_preserves_ceiling script _ (ceiling_empty budget since history) hrun).total

end Runs

def ceilingRequest (rid : String) (amount : ℤ) : ReserveRequest where
  reservationId := rid
  amountSats := amount
  category := "boltz"
  effectiveBudgetSats := some 100
  sinceTimestamp := some 5

def ceilingScript : Script :=
  [(.reserveSpend (ceilingRequest "a" 60) 200000, []),
    (.reserveSpend (ceilingRequest "b" 50) 200001, []),
    (.markSpendReservationSpent "a" none none true 200002, [])]

theorem budget_ceiling_script :
    (@run ⟨id⟩ (RailTables.empty none) ceilingScript).windowTotal 5 ≤ max 100 0 := by
  refine (@budget_ceiling ⟨id⟩).2 100 5 none ceilingScript ?_
  refine ⟨⟨rfl, rfl⟩, ⟨rfl, rfl⟩, ⟨rfl, ?_⟩, trivial⟩
  simp

example : (@run ⟨id⟩ (RailTables.empty none) ceilingScript).windowTotal 5 = 60 := by
  decide +kernel

end BudgetRail
