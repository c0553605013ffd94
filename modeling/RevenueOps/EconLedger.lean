import RevenueOps.EconIntents
import RevenueOps.FallibleState
import RevenueOps.JsonValue
import Mathlib.Data.List.Induction
import Std.Data.ExtTreeMap

/-! The append-only economic ledger and its replay.
Rows are appended in order and read back in that order; a script of storage failures decides
which appends do not reach the table. -/
namespace EconLedger

open FallibleState JsonValue EconIntents

abbrev Amounts := Std.ExtTreeMap String ℤ

/-- The event vocabulary. A row written by another program may carry any other text. -/
inductive EventType where
  | intentProposed
  | intentRejected
  | intentDeferred
  | intentAuthorized
  | budgetReserved
  | executionStarted
  | executionSucceeded
  | executionFailed
  | executionOutcomeUnknown
  | costRecorded
  | reservationReleased
  | reconciliationCompleted
  | snapshotCreated
  | other (text : String)
  deriving DecidableEq, Repr

/-- Terminal intent-lifecycle events of replay; the first one for a key wins. -/
def terminalEvents : List EventType :=
  [.intentRejected, .intentDeferred, .executionSucceeded, .executionFailed,
    .executionOutcomeUnknown]

structure LedgerEvent where
  eventType : EventType
  intentId : String
  idempotencyKey : String
  cycleId : String
  atTime : ℤ
  amounts : Amounts
  details : Json

structure Ledger where
  events : List LedgerEvent
  faults : List (Option EconError)

def Ledger.empty : Ledger := ⟨[], []⟩

def nonIntegerError (x : Float) : EconError :=
  ⟨"ledger JSON forbids non-integer numbers: " ++ toString x⟩

def checkEvent (e : LedgerEvent) : EconResult Unit :=
  match e.eventType with
  | .other text => .error ⟨"unknown ledger event type: " ++ text.quote⟩
  | _ =>
    if e.intentId = "" ∨ e.idempotencyKey = "" ∨ e.cycleId = "" then
      .error ⟨"intent_id, idempotency_key, cycle_id required"⟩
    else if e.atTime < 0 then .error ⟨s!"at must be unix seconds: {e.atTime}"⟩
    else
      match writeValue e.details with
      | .error x => .error (nonIntegerError x)
      | .ok _ => .ok ()

/-- EconLedger::append, with the id of the new row. -/
def append (e : LedgerEvent) (l : Ledger) : EconResult ℕ × Ledger :=
  match checkEvent e with
  | .error err => (.error err, l)
  | .ok () =>
    match l.faults.head?.join with
    | some err => (.error err, { l with faults := l.faults.tail })
    | none => (.ok (l.events.length + 1), ⟨l.events ++ [e], l.faults.tail⟩)

def AppendFails (e : LedgerEvent) (l : Ledger) : Prop :=
  checkEvent e ≠ .ok () ∨ l.faults.head?.join ≠ none

theorem append_ok {e : LedgerEvent} {l : Ledger} (h : ¬AppendFails e l) :
    append e l = (.ok (l.events.length + 1), ⟨l.events ++ [e], l.faults.tail⟩) := by
  simp only [AppendFails, not_or, not_not] at h
  simp [append, h.1, h.2]

theorem append_fails {e : LedgerEvent} {l : Ledger} (h : AppendFails e l) :
    ∃ err faults, append e l = (.error err, ⟨l.events, faults⟩) := by
  unfold append
  cases hc : checkEvent e with
  | error err => exact ⟨err, l.faults, rfl⟩
  | ok u =>
    cases hf : l.faults.head?.join with
    | some err => exact ⟨err, l.faults.tail, rfl⟩
    | none => simp [AppendFails, hc, hf] at h

/-- An append adds its event at the end or leaves the events alone. -/
theorem append_cases (e : LedgerEvent) (l : Ledger) :
    (¬AppendFails e l ∧ (append e l).1 = .ok (l.events.length + 1) ∧
        (append e l).2.events = l.events ++ [e]) ∨
      (AppendFails e l ∧ (∃ err, (append e l).1 = .error err) ∧
        (append e l).2.events = l.events) := by
  by_cases h : AppendFails e l
  · obtain ⟨err, faults, ha⟩ := append_fails h
    exact Or.inr ⟨h, ⟨err, by rw [ha]⟩, by rw [ha]⟩
  · exact Or.inl ⟨h, by rw [append_ok h], by rw [append_ok h]⟩

structure LedgerState where
  reservedMsat : Amounts
  spentMsat : Amounts
  totalSpentMsat : ℤ
  terminal : Std.ExtTreeMap String EventType
  anomalies : List String

structure Accumulator where
  reserved : Amounts
  spent : Amounts
  terminal : Std.ExtTreeMap String EventType
  anomalies : List String

def Accumulator.empty : Accumulator := ⟨∅, ∅, ∅, []⟩

def valueAt (m : Amounts) (k : String) : ℤ := m[k]?.getD 0

def checkedI64 (x : ℤ) (msg : String) : EconResult ℤ :=
  if -9223372036854775808 ≤ x ∧ x ≤ 9223372036854775807 then .ok x else .error ⟨msg⟩

def detailsTerminal (details : Json) : Bool :=
  ((details.get "terminal").map Json.isTruthy).getD false

def Accumulator.markTerminal (acc : Accumulator) (key : String) (t : EventType) : Accumulator :=
  { acc with terminal := acc.terminal.insertIfNew key t }

def Accumulator.setReserved (acc : Accumulator) (key : String) (v : ℤ) : Accumulator :=
  { acc with reserved := acc.reserved.insert key v }

def applyCost (acc : Accumulator) (key : String) (cost : ℤ) : EconResult Accumulator := do
  let curReserved := valueAt acc.reserved key
  let anomalies := if curReserved ≤ 0 ∧ acc.spent[key]? = none then
    acc.anomalies ++ ["cost_recorded without reservation: " ++ key] else acc.anomalies
  let curSpent := valueAt acc.spent key
  let newSpent ← checkedI64 (curSpent + cost)
    s!"ledger replay: spend accumulation overflow for {key}: {curSpent} + {cost}"
  let newReserved ← checkedI64 (curReserved - cost)
    s!"ledger replay: reservation release overflow for {key}: {curReserved} - {cost}"
  pure
    { acc with
      anomalies := anomalies
      spent := acc.spent.insert key newSpent
      reserved := acc.reserved.insert key (max newReserved 0) }

def applyReconciliation (acc : Accumulator) (e : LedgerEvent) : EconResult Accumulator := do
  let key := e.idempotencyKey
  let acc := match e.amounts["reserved_msat"]? with
    | some v => acc.setReserved key v
    | none => acc
  let acc ← match e.amounts["cost_msat"]? with
    | some v => do
      let curSpent := valueAt acc.spent key
      let newSpent ← checkedI64 (curSpent + v)
        s!"ledger replay: reconciliation_completed spend accumulation overflow for {key}: {curSpent} + {v}"
      pure { acc with spent := acc.spent.insert key newSpent }
    | none => pure acc
  pure (if detailsTerminal e.details then acc.markTerminal key e.eventType else acc)

def applyEvent (acc : Accumulator) (e : LedgerEvent) : EconResult Accumulator :=
  match e.eventType with
  | .budgetReserved => .ok (acc.setReserved e.idempotencyKey (valueAt e.amounts "reserved_msat"))
  | .costRecorded => applyCost acc e.idempotencyKey (valueAt e.amounts "cost_msat")
  | .reservationReleased => .ok (acc.setReserved e.idempotencyKey 0)
  | .reconciliationCompleted => applyReconciliation acc e
  | t => .ok (if t ∈ terminalEvents then acc.markTerminal e.idempotencyKey t else acc)

def accumulate (events : List LedgerEvent) : EconResult Accumulator :=
  events.foldlM applyEvent .empty

def totalSpent (spent : Amounts) : EconResult ℤ :=
  (spent.toList.map Prod.snd).foldlM (fun acc v =>
    checkedI64 (acc + v) "ledger replay: total_spent_msat accumulation overflow") 0

/-- Zero-valued reservations are dropped from the result. -/
def finish (acc : Accumulator) : EconResult LedgerState := do
  let total ← totalSpent acc.spent
  pure
    { reservedMsat := acc.reserved.filter fun _ v => v ≠ 0
      spentMsat := acc.spent
      totalSpentMsat := total
      terminal := acc.terminal
      anomalies := acc.anomalies }

def replay (events : List LedgerEvent) : EconResult LedgerState := do
  let acc ← accumulate events
  finish acc

theorem accumulate_append (es fs : List LedgerEvent) :
    accumulate (es ++ fs) = accumulate es >>= fun acc => fs.foldlM applyEvent acc := by
  simp only [accumulate, List.foldlM_append]

theorem accumulate_snoc (es : List LedgerEvent) (e : LedgerEvent) :
    accumulate (es ++ [e]) = accumulate es >>= fun acc => applyEvent acc e := by
  simp only [accumulate_append, List.foldlM_cons, List.foldlM_nil, bind_pure]

theorem replay_eq {es : List LedgerEvent} {st : LedgerState} (h : replay es = .ok st) :
    ∃ acc, accumulate es = .ok acc ∧ finish acc = .ok st := by
  unfold replay at h
  cases ha : accumulate es with
  | error err => simp [ha, bind, Except.bind] at h
  | ok acc => exact ⟨acc, rfl, by simpa [ha, bind, Except.bind] using h⟩

theorem replay_of {es : List LedgerEvent} {acc : Accumulator} {st : LedgerState}
    (ha : accumulate es = .ok acc) (hf : finish acc = .ok st) : replay es = .ok st := by
  simp [replay, ha, hf, bind, Except.bind]

theorem finish_ok_iff {acc : Accumulator} {st : LedgerState} :
    finish acc = .ok st ↔ totalSpent acc.spent = .ok st.totalSpentMsat ∧
      st.reservedMsat = acc.reserved.filter (fun _ v => v ≠ 0) ∧ st.spentMsat = acc.spent ∧
      st.terminal = acc.terminal ∧ st.anomalies = acc.anomalies := by
  unfold finish
  cases ht : totalSpent acc.spent with
  | error err => simp [bind, Except.bind]
  | ok total =>
    obtain ⟨r, s, n, t, a⟩ := st
    simp only [bind, Except.bind, pure, Except.pure, Except.ok.injEq, LedgerState.mk.injEq]
    constructor
    · rintro ⟨rfl, rfl, rfl, rfl, rfl⟩
      exact ⟨rfl, rfl, rfl, rfl, rfl⟩
    · rintro ⟨rfl, rfl, rfl, rfl, rfl⟩
      exact ⟨rfl, rfl, rfl, rfl, rfl⟩

/-- A map without its zero entries reads the same, up to an absent entry standing for zero. -/
theorem valueAt_filter_nonzero (m : Amounts) (k : String) :
    valueAt (m.filter fun _ v => v ≠ 0) k = valueAt m k := by
  unfold valueAt
  rw [Std.ExtTreeMap.getElem?_filter]
  cases hk : m[k]? with
  | none => simp
  | some v => by_cases hv : v = 0 <;> simp [Option.pfilter, hv]

theorem getElem?_filter_nonzero (m : Amounts) (k : String) :
    (m.filter fun _ v => v ≠ 0)[k]? = if valueAt m k = 0 then none else some (valueAt m k) := by
  unfold valueAt
  rw [Std.ExtTreeMap.getElem?_filter]
  cases hk : m[k]? with
  | none => simp
  | some v => by_cases hv : v = 0 <;> simp [Option.pfilter, hv]

@[simp] theorem valueAt_insert (m : Amounts) (k k' : String) (v : ℤ) :
    valueAt (m.insert k v) k' = if k = k' then v else valueAt m k' := by
  unfold valueAt
  rw [Std.ExtTreeMap.getElem?_insert]
  by_cases h : k = k' <;> simp [h]

theorem replay_reserved_getElem? {es : List LedgerEvent} {st : LedgerState}
    (h : replay es = .ok st) (k : String) :
    st.reservedMsat[k]? =
      if valueAt st.reservedMsat k = 0 then none else some (valueAt st.reservedMsat k) := by
  obtain ⟨acc, -, hf⟩ := replay_eq h
  rw [(finish_ok_iff.mp hf).2.1, getElem?_filter_nonzero, valueAt_filter_nonzero]

/-- Events that cannot fail in replay and touch neither spend nor anomalies. -/
def HoldEvent (e : LedgerEvent) : Prop :=
  e.eventType ≠ .costRecorded ∧
    (e.eventType = .reconciliationCompleted → e.amounts["cost_msat"]? = none)

def holdEffect (m : String → ℤ) (e : LedgerEvent) : String → ℤ :=
  match e.eventType with
  | .budgetReserved => Function.update m e.idempotencyKey (valueAt e.amounts "reserved_msat")
  | .reservationReleased => Function.update m e.idempotencyKey 0
  | .reconciliationCompleted =>
    match e.amounts["reserved_msat"]? with
    | some v => Function.update m e.idempotencyKey v
    | none => m
  | _ => m

theorem valueAt_setReserved (acc : Accumulator) (key : String) (v : ℤ) :
    valueAt (acc.setReserved key v).reserved = Function.update (valueAt acc.reserved) key v := by
  funext k
  simp only [Accumulator.setReserved, valueAt_insert, Function.update_apply, eq_comm]

private theorem applyReconciliation_hold {acc : Accumulator} {e : LedgerEvent}
    (hcost : e.amounts["cost_msat"]? = none) :
    ∃ acc', applyReconciliation acc e = .ok acc' ∧ acc'.spent = acc.spent ∧
      acc'.anomalies = acc.anomalies ∧ valueAt acc'.reserved =
        match e.amounts["reserved_msat"]? with
        | some v => Function.update (valueAt acc.reserved) e.idempotencyKey v
        | none => valueAt acc.reserved := by
  unfold applyReconciliation
  simp only [hcost]
  refine ⟨_, rfl, ?_⟩
  cases e.amounts["reserved_msat"]? with
  | none => split <;> exact ⟨rfl, rfl, rfl⟩
  | some v => split <;> exact ⟨rfl, rfl, valueAt_setReserved acc _ v⟩

theorem applyEvent_hold (acc : Accumulator) {e : LedgerEvent} (he : HoldEvent e) :
    ∃ acc', applyEvent acc e = .ok acc' ∧ acc'.spent = acc.spent ∧
      acc'.anomalies = acc.anomalies ∧
      valueAt acc'.reserved = holdEffect (valueAt acc.reserved) e := by
  unfold applyEvent holdEffect
  cases ht : e.eventType
  case costRecorded => exact absurd ht he.1
  case budgetReserved => exact ⟨_, rfl, rfl, rfl, valueAt_setReserved acc _ _⟩
  case reservationReleased => exact ⟨_, rfl, rfl, rfl, valueAt_setReserved acc _ _⟩
  case reconciliationCompleted => exact applyReconciliation_hold (he.2 ht)
  all_goals
    refine ⟨_, rfl, ?_⟩
    split <;> exact ⟨rfl, rfl, rfl⟩

structure HoldsOnly (st st' : LedgerState) (events : List LedgerEvent) : Prop where
  spent : st'.spentMsat = st.spentMsat
  total : st'.totalSpentMsat = st.totalSpentMsat
  anomalies : st'.anomalies = st.anomalies
  reserved : valueAt st'.reservedMsat = events.foldl holdEffect (valueAt st.reservedMsat)

theorem replay_snoc {es : List LedgerEvent} {st : LedgerState} {e : LedgerEvent}
    (h : replay es = .ok st) (he : HoldEvent e) :
    ∃ st', replay (es ++ [e]) = .ok st' ∧ HoldsOnly st st' [e] := by
  obtain ⟨acc, ha, hf⟩ := replay_eq h
  obtain ⟨acc', ha', hspent, hanom, hres⟩ := applyEvent_hold acc he
  obtain ⟨htotal, hreserved, hspent', -, hanom'⟩ := finish_ok_iff.mp hf
  have hread : ∀ a : Accumulator,
      valueAt (a.reserved.filter fun _ v => v ≠ 0) = valueAt a.reserved :=
    fun a => funext (valueAt_filter_nonzero a.reserved)
  have hacc : accumulate (es ++ [e]) = .ok acc' := by
    rw [accumulate_snoc, ha]
    exact ha'
  let st' : LedgerState := ⟨acc'.reserved.filter fun _ v => v ≠ 0, acc'.spent, st.totalSpentMsat,
    acc'.terminal, acc'.anomalies⟩
  refine ⟨st', replay_of hacc (finish_ok_iff.mpr ⟨?_, rfl, rfl, rfl, rfl⟩), ?_⟩
  · rw [hspent]
    exact htotal
  · refine ⟨hspent.trans hspent'.symm, rfl, hanom.trans hanom'.symm, ?_⟩
    rw [hread acc', hres, hreserved, hread acc]
    rfl

theorem replay_append {es fs : List LedgerEvent} {st : LedgerState} (h : replay es = .ok st)
    (hfs : ∀ e ∈ fs, HoldEvent e) : ∃ st', replay (es ++ fs) = .ok st' ∧ HoldsOnly st st' fs := by
  induction fs generalizing es st with
  | nil => exact ⟨st, by simpa using h, rfl, rfl, rfl, rfl⟩
  | cons e fs ih =>
    obtain ⟨st₁, hst₁, h₁⟩ := replay_snoc h (hfs e (by simp))
    obtain ⟨st₂, hst₂, h₂⟩ := ih hst₁ fun e' he' => hfs e' (by simp [he'])
    refine ⟨st₂, by simpa using hst₂, h₂.spent.trans h₁.spent, h₂.total.trans h₁.total,
      h₂.anomalies.trans h₁.anomalies, ?_⟩
    rw [h₂.reserved, h₁.reserved]
    rfl

def ReservationsNonneg (events : List LedgerEvent) : Prop :=
  ∀ e ∈ events, ∀ v, e.amounts["reserved_msat"]? = some v → 0 ≤ v

private theorem applyReconciliation_reserved {acc acc' : Accumulator} {e : LedgerEvent}
    (h : applyReconciliation acc e = .ok acc') :
    acc'.reserved = (match e.amounts["reserved_msat"]? with
      | some v => acc.setReserved e.idempotencyKey v
      | none => acc).reserved := by
  unfold applyReconciliation at h
  have hmark : ∀ b : Accumulator, (if detailsTerminal e.details then
      b.markTerminal e.idempotencyKey e.eventType else b).reserved = b.reserved := by
    intro b
    split <;> rfl
  cases hcost : e.amounts["cost_msat"]? with
  | none =>
    simp only [hcost, pure_bind] at h
    rw [← Except.ok.inj h]
    exact hmark _
  | some v =>
    simp only [hcost] at h
    generalize checkedI64 _ _ = spent at h
    cases spent with
    | error err => simp [bind, Except.bind] at h
    | ok total =>
      simp only [bind, Except.bind, pure, Except.pure] at h
      rw [← Except.ok.inj h]
      exact hmark _

private theorem applyEvent_nonneg {acc acc' : Accumulator} {e : LedgerEvent}
    (hacc : ∀ k, 0 ≤ valueAt acc.reserved k)
    (he : ∀ v, e.amounts["reserved_msat"]? = some v → 0 ≤ v) (h : applyEvent acc e = .ok acc') :
    ∀ k, 0 ≤ valueAt acc'.reserved k := by
  have hset : ∀ key v, 0 ≤ v → ∀ k, 0 ≤ valueAt (acc.setReserved key v).reserved k := by
    intro key v hv k
    rw [valueAt_setReserved, Function.update_apply]
    split
    · exact hv
    · exact hacc k
  have hmark : ∀ (b : Accumulator) key t, (b.markTerminal key t).reserved = b.reserved :=
    fun _ _ _ => rfl
  unfold applyEvent at h
  cases ht : e.eventType <;> simp only [ht] at h
  case budgetReserved =>
    obtain rfl := Except.ok.inj h
    apply hset
    unfold valueAt
    cases hv : e.amounts["reserved_msat"]? with
    | none => exact le_refl _
    | some v => exact he v hv
  case reservationReleased =>
    obtain rfl := Except.ok.inj h
    exact hset _ 0 (le_refl _)
  case costRecorded =>
    unfold applyCost at h
    simp only [bind, Except.bind] at h
    split at h
    · simp at h
    · split at h
      · simp at h
      · obtain rfl := Except.ok.inj h
        intro k
        simp only [valueAt_insert]
        split
        · exact le_max_right _ _
        · exact hacc k
  case reconciliationCompleted =>
    rw [applyReconciliation_reserved h]
    split
    · rename_i v hv
      exact hset _ v (he v hv)
    · exact hacc
  all_goals
    obtain rfl := Except.ok.inj h
    split
    · rw [hmark]
      exact hacc
    · exact hacc

theorem accumulate_nonneg {es : List LedgerEvent} {acc : Accumulator}
    (hes : ReservationsNonneg es) (h : accumulate es = .ok acc) :
    ∀ k, 0 ≤ valueAt acc.reserved k := by
  induction es using List.reverseRecOn generalizing acc with
  | nil =>
    obtain rfl := Except.ok.inj h
    intro k
    simp [Accumulator.empty, valueAt]
  | append_singleton es e ih =>
    rw [accumulate_snoc] at h
    cases ha : accumulate es with
    | error err => simp [ha, bind, Except.bind] at h
    | ok a =>
      have he : applyEvent a e = .ok acc := by
        rw [ha] at h
        exact h
      refine applyEvent_nonneg (ih (fun e' he' => hes e' (by simp [he'])) ha) ?_ he
      exact fun v hv => hes e (by simp) v hv

theorem replay_nonneg {es : List LedgerEvent} {st : LedgerState} (hes : ReservationsNonneg es)
    (h : replay es = .ok st) (k : String) : 0 ≤ valueAt st.reservedMsat k := by
  obtain ⟨acc, ha, hf⟩ := replay_eq h
  rw [(finish_ok_iff.mp hf).2.1, valueAt_filter_nonzero]
  exact accumulate_nonneg hes ha k

end EconLedger
