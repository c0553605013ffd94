import RevenueOps.StaleSweepRuns

/-! The state writer's release and settlement of a budget reservation beside the budget rail's own.
The rail looks in the unified ledger first; the writer knows the legacy table only. -/
namespace RailAgreement

open FallibleState SqlTransaction KeyedTable RustText BudgetRail RailTables StaleSweeps

inductive Operation where
  | releaseBudgetReservation (reservationId : String)
  | markBudgetSpent (reservationId : String) (actualSpent : ℤ)

def Operation.reservationId : Operation → String
  | .releaseBudgetReservation id => id
  | .markBudgetSpent id _ => id

def Operation.toStatus : Operation → Status
  | .releaseBudgetReservation _ => .released
  | .markBudgetSpent _ _ => .spent

def Operation.writer (op : Operation) : Rail BudgetTransition :=
  budgetTransition op.reservationId op.toStatus

def Operation.rail [UnicodeCase] : Operation → Rail Bool
  | .releaseBudgetReservation id => BudgetRail.releaseBudgetReservation id
  | .markBudgetSpent id actualSpent => BudgetRail.markBudgetSpent id actualSpent

def Operation.unifiedId : Operation → Option String
  | .releaseBudgetReservation id => some id
  | .markBudgetSpent id _ => if trim id = "" then none else some (trim id)

def UnifiedActive (op : Operation) (t : RailTables) : Prop :=
  ∃ id row, op.unifiedId = some id ∧ t.spendReservations.find? id = some row ∧ row.status = .active

/-- A row as reserve_spend leaves it for a rebalance. -/
def GrantedActive (t : RailTables) (id : String) : Prop :=
  trim id = id ∧ id ≠ "" ∧ ∃ row, t.spendReservations.find? id = some row ∧
    row.category = "rebalance" ∧ row.status = .active

/-- From one state, the writer leaves the three tables as the rail does, answers Applied exactly
when the rail answers true, and both apply to every granted row. -/
structure Agrees [UnicodeCase] (op : Operation) (t : RailTables) : Prop where
  spend : (call op.writer [] t).2.spendReservations = (call op.rail [] t).2.spendReservations
  legacy : (call op.writer [] t).2.budgetReservations = (call op.rail [] t).2.budgetReservations
  events : (call op.writer [] t).2.spendEvents = (call op.rail [] t).2.spendEvents
  answer : (call op.writer [] t).1 = .ok .applied ↔ (call op.rail [] t).1 = .ok true
  granted : GrantedActive t op.reservationId →
    (call op.writer [] t).1 = .ok .applied ∧ (call op.rail [] t).1 = .ok true

section Runs

variable {t : RailTables} {id : String} {s : Status}

def transitionOutcome (t : RailTables) (id : String) : BudgetTransition :=
  if 0 < t.countLegacy (fun r => r.reservationId = id) then .applied
  else if 0 < t.budgetReservations.rows.countP (fun r => r.reservationId = id) then .alreadyTerminal
  else .notFound

theorem transitionOutcome_applied : transitionOutcome t id = .applied ↔
    0 < t.countLegacy (fun r => r.reservationId = id) := by
  unfold transitionOutcome
  by_cases h : 0 < t.countLegacy (fun r => r.reservationId = id)
  · rw [if_pos h]
    exact ⟨fun _ => h, fun _ => rfl⟩
  · rw [if_neg h]
    constructor
    · intro happlied
      split at happlied <;> cases happlied
    · intro hpos
      exact absurd hpos h

theorem call_immediateTxn {α : Type} {work : Rail α} {a : α} {t' : RailTables}
    (hwork : work ⟨t, some t, []⟩ = (.ok a, ⟨t, some t', []⟩)) :
    call (immediateTxn work) [] t = (.ok a, t') := by
  have hbegin : (sql beginImmediate : Rail Unit) ⟨t, none, []⟩ = (.ok (), ⟨t, some t, []⟩) := rfl
  unfold call immediateTxn
  rw [bind_run hbegin, bind_run (attempt_run hwork)]
  rfl

/-- The writer's whole transaction: it flips the legacy row, and nothing else. -/
theorem call_budgetTransition : call (budgetTransition id s) [] t =
    (.ok (transitionOutcome t id), t.flipLegacy (fun r => r.reservationId = id) s) := by
  have hupdate : (sql (updateLegacy (fun r => r.reservationId = id) s)) ⟨t, some t, []⟩ =
      (.ok (t.countLegacy fun r => r.reservationId = id),
        ⟨t, some (t.flipLegacy (fun r => r.reservationId = id) s), []⟩) := rfl
  refine call_immediateTxn ?_
  rw [bind_run hupdate]
  unfold transitionOutcome
  by_cases h : 0 < t.countLegacy (fun r => r.reservationId = id)
  · rw [if_pos h, if_pos h]
    rfl
  · rw [if_neg h, if_neg h, flipLegacy_of_none (by omega)]
    rfl

theorem call_releaseBudget : call (BudgetRail.releaseBudgetReservation id) [] t =
    if 0 < t.countSpend (fun r => r.reservationId = id) then
      (.ok true, t.flipSpend (fun r => r.reservationId = id) .released)
    else (.ok (decide (0 < t.countLegacy fun r => r.reservationId = id)),
      t.flipLegacy (fun r => r.reservationId = id) .released) := by
  have hspend : (releaseSpendReservation id) ⟨t, none, []⟩ =
      (.ok (decide (0 < t.countSpend fun r => r.reservationId = id)),
        ⟨t.flipSpend (fun r => r.reservationId = id) .released, none, []⟩) := rfl
  unfold call BudgetRail.releaseBudgetReservation
  rw [bind_run hspend]
  by_cases h : 0 < t.countSpend (fun r => r.reservationId = id)
  · rw [if_pos h]
    simp only [h]
    rfl
  · rw [if_neg h, flipSpend_of_none (by omega)]
    simp only [h]
    rfl

/-- Without an event to record, the settlement in the transaction is the flip of the row. -/
theorem run_markSpentInTx [UnicodeCase] {actual : Option ℤ} (hid : trim id ≠ "") :
    (markSpentInTx (trim id) actual none false 0) ⟨t, some t, []⟩ =
      (.ok (.applied (decide (0 < t.countSpend fun r => r.reservationId = trim id))),
        ⟨t, some (t.flipSpend (fun r => r.reservationId = trim id) .spent), []⟩) := by
  unfold markSpentInTx
  rw [trim_trim, if_neg hid]
  have hquery : (sql (query fun t => .ok (t.spendReservations.find? (trim id))) : Rail _)
      ⟨t, some t, []⟩ = (.ok (t.spendReservations.find? (trim id)), ⟨t, some t, []⟩) := rfl
  rw [bind_run hquery]
  cases hrow : t.spendReservations.find? (trim id) with
  | none =>
    have hcount : t.countSpend (fun r => r.reservationId = trim id) = 0 := by
      by_contra hpos
      obtain ⟨row, hfound, -⟩ := countSpend_id_pos.mp (Nat.pos_of_ne_zero hpos)
      rw [hrow] at hfound
      cases hfound
    rw [flipSpend_of_none hcount, hcount]
    rfl
  | some row =>
    have hupdate : (sql (updateSpend (fun r => r.reservationId = trim id) .spent))
        ⟨t, some t, []⟩ = (.ok (t.countSpend fun r => r.reservationId = trim id),
          ⟨t, some (t.flipSpend (fun r => r.reservationId = trim id) .spent), []⟩) := rfl
    simp only [bind_run hupdate, Bool.false_eq_true, and_false, if_false]
    rfl

theorem run_markSpendReservationSpent [UnicodeCase] {actual : Option ℤ} (hid : trim id ≠ "") :
    (markSpendReservationSpent id actual none false 0) ⟨t, none, []⟩ =
      (.ok (decide (0 < t.countSpend fun r => r.reservationId = trim id)),
        ⟨t.flipSpend (fun r => r.reservationId = trim id) .spent, none, []⟩) := by
  have hbegin : (sql beginImmediate : Rail Unit) ⟨t, none, []⟩ = (.ok (), ⟨t, some t, []⟩) := rfl
  unfold markSpendReservationSpent
  rw [if_neg hid, bind_run hbegin, bind_run (attempt_run (run_markSpentInTx hid))]
  rfl

theorem call_markBudgetSpent [UnicodeCase] {actual : ℤ} (hid : trim id ≠ "") :
    call (BudgetRail.markBudgetSpent id actual) [] t =
      if 0 < t.countSpend (fun r => r.reservationId = trim id) then
        (.ok true, t.flipSpend (fun r => r.reservationId = trim id) .spent)
      else (.ok (decide (0 < t.countLegacy fun r => r.reservationId = id)),
        t.flipLegacy (fun r => r.reservationId = id) .spent) := by
  unfold call BudgetRail.markBudgetSpent
  rw [bind_run (run_markSpendReservationSpent hid)]
  by_cases h : 0 < t.countSpend (fun r => r.reservationId = trim id)
  · rw [if_pos h]
    simp only [h]
    rfl
  · rw [if_neg h, flipSpend_of_none (by omega)]
    simp only [h]
    rfl

theorem call_markBudgetSpent_blank [UnicodeCase] {actual : ℤ} (hid : trim id = "") :
    call (BudgetRail.markBudgetSpent id actual) [] t =
      (.ok (decide (0 < t.countLegacy fun r => r.reservationId = id)),
        t.flipLegacy (fun r => r.reservationId = id) .spent) := by
  have hspend : (markSpendReservationSpent id (some actual) none false 0) ⟨t, none, []⟩ =
      (.ok false, ⟨t, none, []⟩) := by
    unfold markSpendReservationSpent
    rw [if_pos hid]
    rfl
  unfold call BudgetRail.markBudgetSpent
  rw [bind_run hspend]
  rfl

/-- The number of active rows of the unified ledger that the operation flips. -/
def unifiedCount (op : Operation) (t : RailTables) : ℕ :=
  match op.unifiedId with
  | some id => t.countSpend fun r => r.reservationId = id
  | none => 0

theorem unifiedActive_iff {op : Operation} : UnifiedActive op t ↔ 0 < unifiedCount op t := by
  unfold UnifiedActive unifiedCount
  cases hid : op.unifiedId with
  | none => simp
  | some id =>
    have hcount := @countSpend_id_pos t id
    constructor
    · rintro ⟨id', row, hsome, hrow, hactive⟩
      obtain rfl := Option.some.inj hsome
      exact hcount.mpr ⟨row, hrow, hactive⟩
    · intro hpos
      obtain ⟨row, hrow, hactive⟩ := hcount.mp hpos
      exact ⟨id, row, rfl, hrow, hactive⟩

theorem unifiedCount_spent {actual : ℤ} (hid : trim id ≠ "") :
    unifiedCount (.markBudgetSpent id actual) t =
      t.countSpend fun r => r.reservationId = trim id := by
  have hkey : (Operation.markBudgetSpent id actual).unifiedId = some (trim id) := if_neg hid
  unfold unifiedCount
  rw [hkey]

theorem unifiedCount_blank {actual : ℤ} (hid : trim id = "") :
    unifiedCount (.markBudgetSpent id actual) t = 0 := by
  have hkey : (Operation.markBudgetSpent id actual).unifiedId = none := if_pos hid
  unfold unifiedCount
  rw [hkey]

/-- The rail on a row that the unified ledger does not hold active: the writer's flip. -/
theorem call_rail_legacy [UnicodeCase] {op : Operation} (h : unifiedCount op t = 0) :
    call op.rail [] t =
    (.ok (decide (0 < t.countLegacy fun r => r.reservationId = op.reservationId)),
      t.flipLegacy (fun r => r.reservationId = op.reservationId) op.toStatus) := by
  cases op with
  | releaseBudgetReservation id =>
    refine call_releaseBudget.trans (if_neg ?_)
    exact Nat.not_lt_of_le h.le
  | markBudgetSpent id actual =>
    by_cases hid : trim id = ""
    · exact call_markBudgetSpent_blank hid
    · rw [unifiedCount_spent hid] at h
      refine (call_markBudgetSpent hid).trans (if_neg ?_)
      exact Nat.not_lt_of_le h.le

theorem flipSpend_ne (hs : s ≠ .active) (hpos : 0 < t.countSpend (fun r => r.reservationId = id)) :
    (t.flipSpend (fun r => r.reservationId = id) s).spendReservations ≠ t.spendReservations := by
  intro heq
  obtain ⟨row, hrow, hactive⟩ := countSpend_id_pos.mp hpos
  have hheld : HeldSpend (t.flipSpend (fun r => r.reservationId = id) s) id := by
    unfold HeldSpend
    rw [heq]
    exact ⟨row, hrow, hactive⟩
  obtain ⟨other, hother, -, hkept⟩ := (heldSpend_flipSpend hs _).mp hheld
  have hkey := find_key hother
  simp [hkey] at hkept

/-- The rail on an active row of the unified ledger: it flips that row. -/
theorem call_rail_unified [UnicodeCase] {op : Operation} (h : 0 < unifiedCount op t) :
    (call op.rail [] t).2.spendReservations ≠ t.spendReservations := by
  cases op with
  | releaseBudgetReservation id =>
    have hcall : call (Operation.releaseBudgetReservation id).rail [] t = _ :=
      call_releaseBudget.trans (if_pos h)
    rw [hcall]
    exact flipSpend_ne (by decide) h
  | markBudgetSpent id actual =>
    by_cases hid : trim id = ""
    · rw [unifiedCount_blank hid] at h
      omega
    · rw [unifiedCount_spent hid] at h
      have hcall : call (Operation.markBudgetSpent id actual).rail [] t = _ :=
        (call_markBudgetSpent hid).trans (if_pos h)
      rw [hcall]
      exact flipSpend_ne (by decide) h

theorem GrantedActive.unified {op : Operation} (h : GrantedActive t op.reservationId) :
    UnifiedActive op t := by
  obtain ⟨htrim, hid, row, hrow, -, hactive⟩ := h
  cases op with
  | releaseBudgetReservation id => exact ⟨id, row, rfl, hrow, hactive⟩
  | markBudgetSpent id actual =>
    have hkept : trim id = id := htrim
    have hblank : trim id ≠ "" := by
      rw [hkept]
      exact hid
    have hkey : (Operation.markBudgetSpent id actual).unifiedId = some (trim id) := if_neg hblank
    rw [hkept] at hkey
    exact ⟨id, row, hkey, hrow, hactive⟩

/-- The two rails agree on exactly the states without an active unified row for the operation. -/
theorem agrees_iff [UnicodeCase] (op : Operation) (t : RailTables) :
    Agrees op t ↔ ¬ UnifiedActive op t := by
  have hwriter : call op.writer [] t = (.ok (transitionOutcome t op.reservationId),
      t.flipLegacy (fun r => r.reservationId = op.reservationId) op.toStatus) :=
    call_budgetTransition
  constructor
  · intro hagrees hunified
    have hspend := hagrees.spend
    rw [hwriter] at hspend
    exact call_rail_unified (unifiedActive_iff.mp hunified) hspend.symm
  · intro hnone
    have hcount : unifiedCount op t = 0 := Nat.eq_zero_of_not_pos (mt unifiedActive_iff.mpr hnone)
    have hrail := call_rail_legacy hcount
    constructor
    · rw [hwriter, hrail]
    · rw [hwriter, hrail]
    · rw [hwriter, hrail]
    · rw [hwriter, hrail]
      have happlied := @transitionOutcome_applied t op.reservationId
      simpa using happlied
    · intro hgranted
      exact absurd hgranted.unified hnone

end Runs

section Granted

/-- A rebalance reservation as reserve_spend grants it. -/
def grantedTables : RailTables :=
  (RailTables.empty none).putReservation
    { reservationId := "42"
      category := "rebalance"
      subcategory := none
      reservedSats := 500
      reservedAt := 1000
      referenceId := none
      channelId := some "1x1x1"
      status := .active
      metadataJson := none }

/-- The writer does not find the granted reservation, which the rail releases and settles. -/
theorem writer_misses_granted_reservation :
    GrantedActive grantedTables "42" ∧
    (call (Operation.releaseBudgetReservation "42").writer [] grantedTables).1 = .ok .notFound ∧
    (call (@Operation.rail asciiCase (.releaseBudgetReservation "42")) [] grantedTables).1 =
      .ok true ∧
    (call (Operation.markBudgetSpent "42" 7).writer [] grantedTables).1 = .ok .notFound ∧
    (call (@Operation.rail asciiCase (.markBudgetSpent "42" 7)) [] grantedTables).1 = .ok true := by
  have htrim : trim "42" = "42" := by decide +kernel
  refine ⟨⟨htrim, by decide, _, rfl, rfl, rfl⟩, rfl, rfl, rfl, ?_⟩
  have hid : trim "42" ≠ "" := by
    rw [htrim]
    decide
  have hpos : 0 < grantedTables.countSpend (fun r => r.reservationId = trim "42") := by
    rw [htrim]
    decide
  have hcall := (@call_markBudgetSpent grantedTables "42" asciiCase 7 hid).trans (if_pos hpos)
  exact congrArg Prod.fst hcall

end Granted

end RailAgreement
