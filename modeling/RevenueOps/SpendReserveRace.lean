import RevenueOps.TotalCostBudget
import RevenueOps.BudgetRailCeiling
import RevenueOps.StaleSweeps
import RevenueOps.StateMachine

/-! Racing spend_reserve calls: a status read, the in-transaction rail, a status read.
The gate of a call uses the status read before its transaction, so another call can be granted
in between; the rail does not count the open and close costs that the status counts. -/
namespace SpendReserveRace

open FallibleState SqlTransaction KeyedTable RustText BudgetRail RailTables TotalCostBudget
open StateMachine StaleSweeps

section Writer

variable [UnicodeCase]

def reserveSpendInTx (req : ReserveRequest) (now : ℤ) : Rail (Bool × ℤ) := do
  let amount := sanitizeAmount req.amountSats
  if amount ≤ 0 then pure (false, 0) else
  let rid := trim req.reservationId
  if rid = "" then pure (false, 0) else
  let cat := toLowercase (trim req.category)
  if cat = "" then pure (false, 0) else
  let metaJson ← Eff.ofExcept (metadataJson req.metadata)
  let dayAgo ← Eff.checked (checkedI64 (now - 24 * 3600))
  reserveSpendBody req (req.sinceTimestamp.getD dayAgo)
    (reservationRow req rid cat amount metaJson now)

/-- The state writer's way to a reservation: unlike BudgetDb::reserve_spend it begins its
transaction before the metadata is read. -/
def reserveGenericSpend (req : ReserveRequest) (now : ℤ) : Rail (Bool × ℤ) :=
  if req.amountSats ≤ 0 ∨ trim req.reservationId = "" ∨ trim req.category = "" then pure (false, 0)
  else immediateTxn (reserveSpendInTx req now)

variable {req : ReserveRequest} {now : ℤ} {t : RailTables}

theorem reserveSpendInTx_spec {db : RailTables} {c : Connection RailTables} (hdb : c.db = db)
    (htx : c.tx = some t) :
    wp (reserveSpendInTx req now) (Inside db (ReservesFor t req now)) c := by
  unfold reserveSpendInTx
  rw [wp_ite]
  refine ⟨fun _ => inside_pure hdb htx rfl, fun hpos => ?_⟩
  rw [wp_ite]
  refine ⟨fun _ => inside_pure hdb htx rfl, fun _ => ?_⟩
  rw [wp_ite]
  refine ⟨fun _ => inside_pure hdb htx rfl, fun _ => ?_⟩
  rw [wp_bind, wp_ofExcept]
  refine ⟨fun metaJson _ => ?_, fun _ _ => hdb⟩
  refine inside_checked hdb fun dayAgo hday => ?_
  obtain rfl := checkedI64_eq hday
  refine wp_mono (reserveSpendBody_spec hdb htx) ?_ (fun _ _ h => h) fun _ h => h
  rintro a d ⟨hd, t', hx, h⟩
  exact ⟨hd, t', hx, reservesFor_of_reserves (not_le.mp hpos) h⟩

theorem reserveGenericSpend_spec {faults : List (Option Fault)} :
    wp (reserveGenericSpend req now) (Atomic t (ReservesFor t req now)) ⟨t, none, faults⟩ := by
  unfold reserveGenericSpend
  rw [wp_ite]
  refine ⟨fun _ => atomic_pure rfl rfl rfl, fun _ => ?_⟩
  exact immediateTxn_spec fun d hdb htx => reserveSpendInTx_spec hdb htx

end Writer

section Calls

structure SpendReserveParams where
  reservationId : String
  amountSats : ℤ
  category : String
  subcategory : Option String := none
  referenceId : Option String := none
  channelId : Option String := none
  metadata : Option JsonValue.Json := none
  positive : 0 < amountSats

inductive Answer where
  | budgetError (e : ReadError)
  | rejected (requestedSats remainingSats : ℤ) (budget : BudgetStatus)
  | notReserved
  | storageFailure (e : BudgetError)
  | inBandError (detail : String)
  | success (before : BudgetStatus) (after : Read BudgetStatus)
  | lost

inductive Phase where
  | waiting
  | gated (budget : BudgetStatus)
  | granted (budget : BudgetStatus)
  | answered (a : Answer)

structure Call where
  params : SpendReserveParams
  phase : Phase

/-- What does not change between the calls: the window, the settings and the clock. -/
structure Owner where
  window : WindowHours
  sources : Sources

def Owner.status (o : Owner) (t : BudgetTables) : Read BudgetStatus :=
  totalCostBudgetResponse o.window o.sources t

/-- The request that reaches the rail carries the limit and the window of the status read. -/
def SpendReserveParams.request (p : SpendReserveParams) (b : BudgetStatus) (now : ℤ) :
    ReserveRequest where
  reservationId := p.reservationId
  amountSats := p.amountSats
  category := p.category
  subcategory := p.subcategory
  referenceId := p.referenceId
  channelId := p.channelId
  metadata := p.metadata
  effectiveBudgetSats := some b.effectiveBudgetSats
  sinceTimestamp := some (now - max b.windowHours 1 * 3600)

/-- The first step: the status, and the friendly gate over it. -/
def gate (o : Owner) (p : SpendReserveParams) (t : BudgetTables) : Phase :=
  match o.status t with
  | .err e => .answered (.budgetError e)
  | .panic => .answered .lost
  | .ok b =>
    if b.remainingSats < p.amountSats then .answered (.rejected p.amountSats b.remainingSats b)
    else .gated b

structure Race where
  tables : BudgetTables
  calls : List Call

inductive Event where
  | check (i : ℕ)
  | reserve (i : ℕ) (faults : List (Option Fault))
  | unknown (i : ℕ) (faults : List (Option Fault)) (detail : String)
  | deny (i : ℕ) (detail : String)
  | report (i : ℕ)

def Phase.isWaiting : Phase → Bool
  | .waiting => true
  | _ => false

def Phase.isGated : Phase → Bool
  | .gated _ => true
  | _ => false

def Phase.isGranted : Phase → Bool
  | .granted _ => true
  | _ => false

def Enabled (s : Race) : Event → Prop
  | .check i => ∃ c ∈ s.calls[i]?, c.phase.isWaiting
  | .reserve i _ => ∃ c ∈ s.calls[i]?, c.phase.isGated
  | .unknown i _ _ => ∃ c ∈ s.calls[i]?, c.phase.isGated
  | .deny i _ => ∃ c ∈ s.calls[i]?, c.phase.isGated
  | .report i => ∃ c ∈ s.calls[i]?, c.phase.isGranted

instance (s : Race) (e : Event) : Decidable (Enabled s e) :=
  match e with
  | .check i => inferInstanceAs (Decidable (∃ c ∈ s.calls[i]?, c.phase.isWaiting))
  | .reserve i _ => inferInstanceAs (Decidable (∃ c ∈ s.calls[i]?, c.phase.isGated))
  | .unknown i _ _ => inferInstanceAs (Decidable (∃ c ∈ s.calls[i]?, c.phase.isGated))
  | .deny i _ => inferInstanceAs (Decidable (∃ c ∈ s.calls[i]?, c.phase.isGated))
  | .report i => inferInstanceAs (Decidable (∃ c ∈ s.calls[i]?, c.phase.isGranted))

theorem exists_waiting {s : Race} {i : ℕ} (h : ∃ c ∈ s.calls[i]?, c.phase.isWaiting) :
    ∃ p, s.calls[i]? = some ⟨p, .waiting⟩ := by
  obtain ⟨⟨p, phase⟩, hc, hw⟩ := h
  cases phase with
  | waiting => exact ⟨p, hc⟩
  | _ => cases hw

theorem exists_gated {s : Race} {i : ℕ} (h : ∃ c ∈ s.calls[i]?, c.phase.isGated) :
    ∃ p b, s.calls[i]? = some ⟨p, .gated b⟩ := by
  obtain ⟨⟨p, phase⟩, hc, hg⟩ := h
  cases phase with
  | gated b => exact ⟨p, b, hc⟩
  | _ => cases hg

theorem exists_granted {s : Race} {i : ℕ} (h : ∃ c ∈ s.calls[i]?, c.phase.isGranted) :
    ∃ p b, s.calls[i]? = some ⟨p, .granted b⟩ := by
  obtain ⟨⟨p, phase⟩, hc, hg⟩ := h
  cases phase with
  | granted b => exact ⟨p, b, hc⟩
  | _ => cases hg

variable [UnicodeCase]

/-- The second step: the state writer reserves inside its transaction. -/
def attempt (o : Owner) (p : SpendReserveParams) (b : BudgetStatus)
    (faults : List (Option Fault)) (t : BudgetTables) :
    Outcome BudgetError (Bool × ℤ) × BudgetTables :=
  let r :=
    SqlTransaction.call (reserveGenericSpend (p.request b o.sources.now) o.sources.now) faults
    t.rail
  (r.1, { t with rail := r.2 })

def Race.setPhase (s : Race) (i : ℕ) (phase : Phase) : Race :=
  { s with calls := s.calls.modify i fun c => { c with phase := phase } }

def acknowledged (b : BudgetStatus) : Outcome BudgetError (Bool × ℤ) → Phase
  | .ok (true, _) => .granted b
  | .ok (false, _) => .answered .notReserved
  | .err e => .answered (.storageFailure e)
  | .panic => .answered .lost

def next (o : Owner) (s : Race) : Event → Race
  | .check i =>
    match s.calls[i]? with
    | some ⟨p, .waiting⟩ => s.setPhase i (gate o p s.tables)
    | _ => s
  | .reserve i faults =>
    match s.calls[i]? with
    | some ⟨p, .gated b⟩ =>
      let r := attempt o p b faults s.tables
      { s.setPhase i (acknowledged b r.1) with tables := r.2 }
    | _ => s
  -- the write may land although its acknowledgement does not come back
  | .unknown i faults detail =>
    match s.calls[i]? with
    | some ⟨p, .gated b⟩ =>
      { s.setPhase i (.answered (.inBandError detail)) with
        tables := (attempt o p b faults s.tables).2 }
    | _ => s
  | .deny i detail => s.setPhase i (.answered (.inBandError detail))
  | .report i =>
    match s.calls[i]? with
    | some ⟨_, .granted b⟩ => s.setPhase i (.answered (.success b (o.status s.tables)))
    | _ => s

def machine (o : Owner) : Machine Race Event := ⟨Enabled, next o⟩

instance (o : Owner) (s : Race) (e : Event) : Decidable ((machine o).Enabled s e) :=
  inferInstanceAs (Decidable (Enabled s e))

end Calls

section Delta

variable {t : RailTables} {row : SpendReservation} {cutoff : ℤ}

def NonnegHolds (t : RailTables) : Prop :=
  ∀ r ∈ t.spendReservations.rows, r.status = .active → 0 ≤ r.reservedSats

theorem heldUnder_eq (t : RailTables) (cutoff : ℤ) (p : String → Bool) :
    heldUnder t cutoff p = t.spendReservations.sumWhere
      (fun r => heldSince cutoff r && p r.category) SpendReservation.reservedSats := by
  unfold heldUnder windowHolds Table.sumWhere
  rw [List.filter_map, List.map_map, List.filter_filter]
  congr 2
  apply List.filter_congr
  intro r _
  exact Bool.and_comm _ _

theorem heldUnder_put (t : RailTables) (row : SpendReservation) (cutoff : ℤ) (p : String → Bool) :
    heldUnder (t.putReservation row) cutoff p = heldUnder t cutoff p -
      contribution (fun r => heldSince cutoff r && p r.category) SpendReservation.reservedSats
        (t.spendReservations.find? row.reservationId) +
      contribution (fun r => heldSince cutoff r && p r.category) SpendReservation.reservedSats
        (some row) := by
  rw [heldUnder_eq, heldUnder_eq]
  exact sumWhere_insertOrReplace ..

theorem replaced_nonneg (hn : NonnegHolds t) (p : String → Bool) (rid : String) :
    0 ≤ contribution (fun r => heldSince cutoff r && p r.category) SpendReservation.reservedSats
      (t.spendReservations.find? rid) := by
  cases hq : t.spendReservations.find? rid with
  | none => exact le_refl _
  | some q =>
    rw [contribution_some]
    by_cases hh : heldSince cutoff q && p q.category
    · rw [if_pos hh]
      have hactive : q.status = .active := by
        simp only [heldSince, spendActive, Bool.and_eq_true, decide_eq_true_eq] at hh
        exact hh.1.1
      exact hn q (find_eq_some_iff.mp hq).1 hactive
    · rw [if_neg hh]

/-- A new reservation lifts the holds of its own category by at most its amount. -/
theorem heldUnder_put_le (hn : NonnegHolds t) (hrow : 0 ≤ row.reservedSats) (cutoff : ℤ)
    (p : String → Bool) :
    heldUnder (t.putReservation row) cutoff p ≤
      heldUnder t cutoff p + if p row.category then row.reservedSats else 0 := by
  have hput := heldUnder_put t row cutoff p
  have hold : 0 ≤ contribution (fun r => heldSince cutoff r && p r.category)
      SpendReservation.reservedSats (t.spendReservations.find? row.reservationId) :=
    replaced_nonneg hn p _
  rw [contribution_some] at hput
  by_cases hp : p row.category
  · by_cases hw : heldSince cutoff row
    · simp only [hp, hw, Bool.and_self, if_true] at hput ⊢
      omega
    · simp only [hp, hw, Bool.false_and, Bool.false_eq_true, if_true, if_false] at hput ⊢
      omega
  · simp only [hp, Bool.and_false, Bool.false_eq_true, if_false] at hput ⊢
    omega

theorem windowHolds_nonneg (hn : NonnegHolds t) :
    ∀ x ∈ (windowHolds t cutoff).map Prod.snd, 0 ≤ x := by
  intro x hx
  simp only [windowHolds, List.map_map, List.mem_map, List.mem_filter, heldSince, spendActive,
    Bool.and_eq_true, decide_eq_true_eq] at hx
  obtain ⟨r, ⟨hr, hactive, -⟩, rfl⟩ := hx
  exact hn r hr hactive

end Delta

section Grant

variable {w : WindowHours} {o : Sources} {t : BudgetTables} {row : SpendReservation}
  {b b' : BudgetStatus}

theorem not_err_checked (x : ℤ) (e : ReadError) : checked x ≠ .err e := by
  unfold checked Outcome.checked
  cases checkedI64 x <;> simp

theorem ok_bind {α β : Type} (a : α) (f : α → Read β) : (Outcome.ok a : Read α) >>= f = f a := rfl

theorem component_put {c c' : RebalanceSpendComponent} (hn : NonnegHolds t.rail)
    (hrow : 0 ≤ row.reservedSats)
    (hread : ∃ v, sumRead ((windowHolds t.rail (windowStart w o)).map Prod.snd) = .ok v)
    (hc : rebalanceComponentValue (rebalanceSpendComponent t.rail w.hours o.now) = .ok c)
    (hc' : rebalanceComponentValue
      (rebalanceSpendComponent (t.rail.putReservation row) w.hours o.now) = .ok c') :
    max c'.totalSpentSats 0 ≤ max c.totalSpentSats 0 ∧ max c'.totalReservedSats 0 ≤
      max c.totalReservedSats 0 + if row.category = "rebalance" then row.reservedSats else 0 := by
  have hextra : (0 : ℤ) ≤ if row.category = "rebalance" then row.reservedSats else 0 := by
    by_cases hcat : row.category = "rebalance"
    · rwa [if_pos hcat]
    · rw [if_neg hcat]
  cases hput : rebalanceSpendComponent (t.rail.putReservation row) w.hours o.now with
  | panic =>
    rw [hput] at hc'
    cases hc'
  | err e =>
    rw [hput] at hc'
    cases hc'
    change max (0 : ℤ) 0 ≤ _ ∧ max (0 : ℤ) 0 ≤ _
    omega
  | ok d =>
    rw [hput] at hc'
    cases hc'
    obtain ⟨span, hspan, hput⟩ := Outcome.bind_eq_ok.mp hput
    obtain ⟨cutoff, hcutoff, hput⟩ := Outcome.bind_eq_ok.mp hput
    have hstart : cutoff = windowStart w o := by
      rw [checked_ok hcutoff, checked_ok hspan, windowStart]
    cases hhistory : t.rail.rebalanceHistory with
    | none =>
      have hsame : (t.rail.putReservation row).rebalanceHistory = none := hhistory
      simp only [hsame] at hput
      cases hput
    | some jobs =>
      have hsame : (t.rail.putReservation row).rebalanceHistory = some jobs := hhistory
      simp only [hsame] at hput
      obtain ⟨spent, hspent, hput⟩ := Outcome.bind_eq_ok.mp hput
      obtain ⟨legacy, hlegacy, hput⟩ := Outcome.bind_eq_ok.mp hput
      obtain ⟨unified, hunified, hput⟩ := Outcome.bind_eq_ok.mp hput
      obtain ⟨reserved, hreserved, hput⟩ := Outcome.bind_eq_ok.mp hput
      obtain rfl := Outcome.pure_eq_ok.mp hput
      -- the holds of the window could be summed, so their rebalance part can be
      have hsub : (ofCategory (windowHolds t.rail cutoff) "rebalance").Sublist
          ((windowHolds t.rail cutoff).map Prod.snd) := List.filter_sublist.map _
      obtain ⟨v, hv⟩ := hread
      rw [← hstart] at hv
      have hold := sumRead_sublist hsub (windowHolds_nonneg hn) hv
      have hbefore : rebalanceSpendComponent t.rail w.hours o.now = (do
          let reserved ← checked (legacy + (ofCategory (windowHolds t.rail cutoff) "rebalance").sum)
          pure ⟨spent, reserved⟩) := by
        unfold rebalanceSpendComponent
        rw [hspan, ok_bind, hcutoff, ok_bind, hhistory]
        have hspent' : sumRead (t.rail.costsSince cutoff) = .ok spent := hspent
        have hlegacy' : sumRead (windowLegacyHolds t.rail cutoff) = .ok legacy := hlegacy
        simp only [hspent', hlegacy', hold, ok_bind]
      rw [hbefore] at hc
      cases hfits : checked (legacy + (ofCategory (windowHolds t.rail cutoff) "rebalance").sum) with
      | panic =>
        rw [hfits] at hc
        cases hc
      | err e => exact absurd hfits (not_err_checked _ e)
      | ok before =>
        rw [hfits] at hc
        cases hc
        have hle := heldUnder_put_le hn hrow cutoff (· = "rebalance")
        have hunified' : unified =
            heldUnder (t.rail.putReservation row) cutoff (· = "rebalance") := sumRead_ok hunified
        have hafter := checked_ok hreserved
        have hbefore := checked_ok hfits
        change _ = legacy + heldUnder t.rail cutoff (· = "rebalance") at hbefore
        simp only [decide_eq_true_eq] at hle
        refine ⟨le_refl _, ?_⟩
        change max reserved 0 ≤ max before 0 + _
        omega

theorem reserved_put {c' : RebalanceSpendComponent} (h : Reports w o (t.putReservation row) b' c') :
    b'.reservedSats = max c'.totalReservedSats 0 +
      max (heldUnder (t.rail.putReservation row) (windowStart w o) (· = "boltz")) 0 +
      max (heldUnder (t.rail.putReservation row) (windowStart w o) ledgerHold) 0 := h.reserved

theorem total_put_le {c c' : RebalanceSpendComponent} (hn : NonnegHolds t.rail)
    (hrow : 0 ≤ row.reservedSats) (h : Reports w o t b c)
    (h' : Reports w o (t.putReservation row) b' c') :
    b'.total ≤ b.total + row.reservedSats := by
  obtain ⟨hspent, hreserved⟩ := component_put hn hrow h.readable h.component h'.component
  have hboltz := heldUnder_put_le hn hrow (windowStart w o) (· = "boltz")
  have hledger := heldUnder_put_le hn hrow (windowStart w o) ledgerHold
  have hother : otherSpent w o (t.putReservation row) = otherSpent w o t := rfl
  have hactual := h.actual
  have hactual' := h'.actual
  have hr := h.reserved
  have hr' := reserved_put h'
  simp only [decide_eq_true_eq] at hboltz
  unfold BudgetStatus.total
  -- the amount goes to the one part that its category belongs to
  by_cases hcat : row.category = "rebalance"
  · simp only [hcat, ledgerHold] at hreserved hboltz hledger
    simp at hreserved hboltz hledger
    omega
  · by_cases hb : row.category = "boltz"
    · simp only [hb, ledgerHold] at hreserved hboltz hledger
      simp at hreserved hboltz hledger
      omega
    · simp only [hcat, hb, ledgerHold] at hreserved hboltz hledger
      simp [hcat, hb] at hreserved hboltz hledger
      omega

end Grant

section Bounds

variable {o : Owner} {limit : ℤ}

def Bounded (o : Owner) (t : BudgetTables) : Prop :=
  ∀ b, o.status t = .ok b → b.total ≤ b.effectiveBudgetSats

def Steady (o : Owner) (limit : ℤ) (t : BudgetTables) : Prop :=
  ∀ b, o.status t = .ok b → b.effectiveBudgetSats = limit

theorem nonnegHolds_reserved {t : BudgetTables} {row : SpendReservation} (hn : NonnegHolds t.rail)
    (hrow : 0 ≤ row.reservedSats) : NonnegHolds (t.putReservation row).rail := by
  intro r hr hactive
  rcases mem_insertOrReplace.mp hr with rfl | ⟨hr, -⟩
  · exact hrow
  · exact hn r hr hactive

theorem bounded_reserved {t : BudgetTables} {row : SpendReservation} {p : SpendReserveParams}
    {b : BudgetStatus} (hn : NonnegHolds t.rail) (hpos : 0 < row.reservedSats)
    (hamount : row.reservedSats ≤ p.amountSats) (hsteady : Steady o limit t)
    (hsteady' : Steady o limit (t.putReservation row)) (hb : o.status t = .ok b)
    (hgate : p.amountSats ≤ b.remainingSats) : Bounded o (t.putReservation row) := by
  intro b' hb'
  obtain ⟨c, hc⟩ := totalCostBudget_reports hb
  obtain ⟨c', hc'⟩ := totalCostBudget_reports hb'
  have htotal := total_put_le hn hpos.le hc hc'
  have hremaining := hc.remaining
  have h := hsteady b hb
  have h' := hsteady' b' hb'
  omega

end Bounds

section Runs

variable [UnicodeCase] {o : Owner} {s : Race} {es : List Event} {limit : ℤ}

def Granted (r : Outcome BudgetError (Bool × ℤ)) : Prop := ∃ left, r = .ok (true, left)

/-- A reservation that is granted would still pass its gate: the amount is within what a status
over the tables that its transaction starts from reports as remaining. -/
def Regated (o : Owner) (s : Race) (i : ℕ) (faults : List (Option Fault)) : Prop :=
  ∀ p b, s.calls[i]? = some ⟨p, .gated b⟩ → Granted (attempt o p b faults s.tables).1 →
    ∃ now, o.status s.tables = .ok now ∧ p.amountSats ≤ now.remainingSats

def Event.Regated (o : Owner) (s : Race) : Event → Prop
  | .reserve i faults => SpendReserveRace.Regated o s i faults
  | .unknown i faults _ => SpendReserveRace.Regated o s i faults
  | _ => True

/-- What a reservation does to the tables: nothing, or one row under the rail's check. -/
theorem attempt_cases (p : SpendReserveParams) (b : BudgetStatus) (faults : List (Option Fault))
    (t : BudgetTables) :
    (∃ row left, (attempt o p b faults t).1 = .ok (true, left) ∧
      (attempt o p b faults t).2 = t.putReservation row ∧ row.status = .active ∧
      row.reservedSats = sanitizeAmount p.amountSats ∧ 0 < row.reservedSats ∧
      row.reservedAt = o.sources.now ∧ row.reservationId = trim p.reservationId ∧
      Grants t.rail (p.request b o.sources.now) (o.sources.now - max b.windowHours 1 * 3600) row
        left) ∨
    (¬ Granted (attempt o p b faults t).1 ∧ (attempt o p b faults t).2 = t) := by
  have hspec : wp (reserveGenericSpend (p.request b o.sources.now) o.sources.now)
      (Atomic t.rail (ReservesFor t.rail (p.request b o.sources.now) o.sources.now))
      ⟨t.rail, none, faults⟩ := reserveGenericSpend_spec
  have hcall := call_atomic faults hspec
  rcases hcall with ⟨⟨granted, left⟩, hreply, heffect⟩ | ⟨hnot, hsame⟩
  · cases granted with
    | true =>
      obtain ⟨row, hid, hactive, hamount, hpos, hat, -, ht, hgrants⟩ := heffect
      refine .inl ⟨row, left, hreply, ?_, hactive, hamount, hpos, hat, hid, hgrants⟩
      change { t with rail := _ } = { t with rail := _ }
      rw [ht]
    | false =>
      refine .inr ⟨?_, ?_⟩
      · rintro ⟨_, h⟩
        exact absurd (hreply.symm.trans h) (by simp)
      · change { t with rail := _ } = t
        rw [show (SqlTransaction.call _ faults t.rail).2 = t.rail from heffect]
  · refine .inr ⟨?_, ?_⟩
    · rintro ⟨left, h⟩
      exact hnot _ h
    · change { t with rail := _ } = t
      rw [hsame]

structure Invariant (o : Owner) (s : Race) : Prop where
  nonneg : NonnegHolds s.tables.rail
  bounded : Bounded o s.tables

theorem attempt_invariant {p : SpendReserveParams} {b : BudgetStatus} {i : ℕ}
    {faults : List (Option Fault)} (h : Invariant o s) (hcall : s.calls[i]? = some ⟨p, .gated b⟩)
    (hregated : Regated o s i faults) (hsteady : Steady o limit s.tables)
    (hsteady' : Steady o limit (attempt o p b faults s.tables).2) :
    NonnegHolds (attempt o p b faults s.tables).2.rail ∧
      Bounded o (attempt o p b faults s.tables).2 := by
  rcases attempt_cases p b faults s.tables with
    ⟨row, left, hgranted, hput, -, hamount, hpos, -⟩ | ⟨-, hsame⟩
  · obtain ⟨now, hnow, hgate⟩ := hregated p b hcall ⟨left, hgranted⟩
    rw [hput] at hsteady' ⊢
    have hle : row.reservedSats ≤ p.amountSats := by
      rw [hamount]
      exact sanitizeAmount_le p.positive.le le_rfl
    exact ⟨nonnegHolds_reserved h.nonneg hpos.le,
      bounded_reserved h.nonneg hpos hle hsteady hsteady' hnow hgate⟩
  · rw [hsame]
    exact ⟨h.nonneg, h.bounded⟩

theorem step_invariant {e : Event} (h : Invariant o s) (hen : Enabled s e)
    (hsteady : Steady o limit s.tables) (hsteady' : Steady o limit (next o s e).tables)
    (hregated : e.Regated o s) : Invariant o (next o s e) := by
  cases e with
  | check i =>
    obtain ⟨p, hp⟩ := exists_waiting hen
    simp only [next, hp]
    exact ⟨h.nonneg, h.bounded⟩
  | reserve i faults =>
    obtain ⟨p, b, hp⟩ := exists_gated hen
    simp only [next, hp] at hsteady' ⊢
    obtain ⟨hn, hb⟩ := attempt_invariant h hp hregated hsteady hsteady'
    exact ⟨hn, hb⟩
  | unknown i faults detail =>
    obtain ⟨p, b, hp⟩ := exists_gated hen
    simp only [next, hp] at hsteady' ⊢
    obtain ⟨hn, hb⟩ := attempt_invariant h hp hregated hsteady hsteady'
    exact ⟨hn, hb⟩
  | deny i detail => exact ⟨h.nonneg, h.bounded⟩
  | report i =>
    obtain ⟨p, b, hp⟩ := exists_granted hen
    simp only [next, hp]
    exact ⟨h.nonneg, h.bounded⟩

/-- The condition on one step of a run: the effective budget stays, and a granted reservation
would still pass its gate. -/
def Step (o : Owner) (limit : ℤ) (s : Race) (e : Event) : Prop :=
  Steady o limit s.tables ∧ Steady o limit (next o s e).tables ∧ e.Regated o s

theorem run_invariant (h : Invariant o s) (hrun : (machine o).Follows (Step o limit) s es) :
    Invariant o ((machine o).run s es) :=
  hrun.invariant h fun _ _ hI hen hstep => step_invariant hI hen hstep.1 hstep.2.1 hstep.2.2

end Runs

section Fresh

variable {o : Owner} {s : Race} {es : List Event} {limit : ℤ}

def Event.Fresh (o : Owner) (s : Race) : Event → Prop
  | .reserve i _ => ∀ p b, s.calls[i]? = some ⟨p, .gated b⟩ → o.status s.tables = .ok b
  | .unknown i _ _ => ∀ p b, s.calls[i]? = some ⟨p, .gated b⟩ → o.status s.tables = .ok b
  | _ => True

def Gated (s : Race) : Prop :=
  ∀ c ∈ s.calls, ∀ b, c.phase = .gated b → c.params.amountSats ≤ b.remainingSats

theorem gated_gate {p : SpendReserveParams} {t : BudgetTables} {b : BudgetStatus}
    (h : gate o p t = .gated b) : p.amountSats ≤ b.remainingSats := by
  unfold gate at h
  cases hs : o.status t with
  | err e => simp [hs] at h
  | panic => simp [hs] at h
  | ok now =>
    by_cases hlt : now.remainingSats < p.amountSats
    · simp [hs, hlt] at h
    · simp only [hs, hlt, if_false, Phase.gated.injEq] at h
      rw [← h]
      omega

theorem gated_setPhase {i : ℕ} {phase : Phase} (h : Gated s)
    (hphase : ∀ p b, (∃ old, s.calls[i]? = some ⟨p, old⟩) → phase = .gated b →
      p.amountSats ≤ b.remainingSats) : Gated (s.setPhase i phase) := by
  intro c hc b hb
  obtain ⟨j, hj⟩ := List.mem_iff_getElem?.mp hc
  simp only [Race.setPhase, List.getElem?_modify] at hj
  by_cases hij : i = j
  · subst hij
    cases hold : s.calls[i]? with
    | none => simp [hold] at hj
    | some old =>
      simp only [hold, if_true, Option.map_eq_map, Option.map_some, Option.some.injEq] at hj
      subst hj
      exact hphase old.params b ⟨old.phase, hold⟩ hb
  · simp only [hij, if_false, Option.map_eq_map, Option.map_id'] at hj
    exact h c (List.mem_of_getElem? hj) b hb

variable [UnicodeCase]

theorem step_gated {e : Event} (h : Gated s) (hen : Enabled s e) : Gated (next o s e) := by
  cases e with
  | check i =>
    obtain ⟨p, hp⟩ := exists_waiting hen
    simp only [next, hp]
    refine gated_setPhase h fun q b hq hb => ?_
    obtain ⟨old, hq⟩ := hq
    rw [hp] at hq
    cases hq
    exact gated_gate hb
  | reserve i faults =>
    obtain ⟨p, b, hp⟩ := exists_gated hen
    simp only [next, hp]
    refine gated_setPhase h fun q b' _ hb => ?_
    revert hb
    rcases (attempt o p b faults s.tables).1 with ⟨_ | _, _⟩ | _ | _ <;> intro hb <;> cases hb
  | unknown i faults detail =>
    obtain ⟨p, b, hp⟩ := exists_gated hen
    simp only [next, hp]
    exact gated_setPhase h fun _ _ _ hb => by cases hb
  | deny i detail => exact gated_setPhase h fun _ _ _ hb => by cases hb
  | report i =>
    obtain ⟨p, b, hp⟩ := exists_granted hen
    simp only [next, hp]
    exact gated_setPhase h fun _ _ _ hb => by cases hb

theorem regated_of_fresh {e : Event} (h : Gated s) (hfresh : e.Fresh o s) : e.Regated o s := by
  cases e with
  | reserve i faults =>
    exact fun p b hp _ => ⟨b, hfresh p b hp, h _ (List.mem_of_getElem? hp) b rfl⟩
  | unknown i faults detail =>
    exact fun p b hp _ => ⟨b, hfresh p b hp, h _ (List.mem_of_getElem? hp) b rfl⟩
  | _ => trivial

/-- Without a grant between a call's status and its transaction the budget holds. -/
theorem fresh_run_bounded (hgated : Gated s) (h : Invariant o s)
    (hrun : (machine o).Follows (fun s e => Steady o limit s.tables ∧
      Steady o limit (next o s e).tables ∧ e.Fresh o s) s es) :
    Bounded o ((machine o).run s es).tables := by
  have hstep := hrun.strengthen hgated (fun _ _ hg hen _ => step_gated hg hen)
    (Q := Step o limit) fun _ _ hg _ hP => ⟨hP.1, hP.2.1, regated_of_fresh hg hP.2.2⟩
  exact (run_invariant h hstep).bounded

end Fresh

section Exact

variable {w : WindowHours} {o : Sources} {t : BudgetTables} {row : SpendReservation}
  {b b' : BudgetStatus}

theorem rebalanceSpendComponent_ok {t : RailTables} {c : RebalanceSpendComponent}
    (h : rebalanceSpendComponent t w.hours o.now = .ok c) :
    c.totalSpentSats = (t.costsSince (windowStart w o)).sum ∧
      c.totalReservedSats = (windowLegacyHolds t (windowStart w o)).sum +
        heldUnder t (windowStart w o) (· = "rebalance") := by
  obtain ⟨span, hspan, h⟩ := Outcome.bind_eq_ok.mp h
  obtain ⟨cutoff, hcutoff, h⟩ := Outcome.bind_eq_ok.mp h
  have hstart : cutoff = windowStart w o := by
    rw [checked_ok hcutoff, checked_ok hspan, windowStart]
  cases hhistory : t.rebalanceHistory with
  | none =>
    simp only [hhistory] at h
    cases h
  | some jobs =>
    simp only [hhistory] at h
    obtain ⟨spent, hspent, h⟩ := Outcome.bind_eq_ok.mp h
    obtain ⟨legacy, hlegacy, h⟩ := Outcome.bind_eq_ok.mp h
    obtain ⟨unified, hunified, h⟩ := Outcome.bind_eq_ok.mp h
    obtain ⟨reserved, hreserved, h⟩ := Outcome.bind_eq_ok.mp h
    obtain rfl := Outcome.pure_eq_ok.mp h
    rw [hstart] at hspent hlegacy hunified
    refine ⟨sumRead_ok hspent, ?_⟩
    change reserved = _
    rw [checked_ok hreserved, sumRead_ok hlegacy, sumRead_ok hunified]
    rfl

theorem heldUnder_put_free (hfree : t.rail.spendReservations.find? row.reservationId = none)
    (hrow : heldSince (windowStart w o) row) (p : String → Bool) :
    heldUnder (t.rail.putReservation row) (windowStart w o) p =
      heldUnder t.rail (windowStart w o) p + if p row.category then row.reservedSats else 0 := by
  rw [heldUnder_put, hfree, contribution_none, contribution_some, hrow, Bool.true_and, sub_zero]

theorem heldUnder_nonneg {t : RailTables} (hn : NonnegHolds t) (cutoff : ℤ) (p : String → Bool) :
    0 ≤ heldUnder t cutoff p := by
  apply List.sum_nonneg
  intro x hx
  have hsub : ((windowHolds t cutoff).filter fun r => p r.1).map Prod.snd ⊆
      (windowHolds t cutoff).map Prod.snd := (List.filter_sublist.map _).subset
  exact windowHolds_nonneg hn x (hsub hx)

theorem windowLegacyHolds_nonneg {t : RailTables} (hn : NonnegAmounts t) (cutoff : ℤ) :
    0 ≤ (windowLegacyHolds t cutoff).sum :=
  List.sum_nonneg (List.forall_mem_map.mpr fun r hr => hn.legacy r (List.mem_filter.mp hr).1)

/-- Over non-negative amounts a status counts the reservation of a free id exactly once. -/
theorem total_put {c c' : RebalanceSpendComponent} (hn : NonnegAmounts t.rail)
    (hfree : t.rail.spendReservations.find? row.reservationId = none)
    (hactive : row.status = .active) (hat : row.reservedAt = o.now) (hrow : 0 ≤ row.reservedSats)
    (h : Reports w o t b c) (hc : rebalanceSpendComponent t.rail w.hours o.now = .ok c)
    (h' : Reports w o (t.putReservation row) b' c')
    (hc' : rebalanceSpendComponent (t.rail.putReservation row) w.hours o.now = .ok c') :
    b'.total = b.total + row.reservedSats := by
  have hin : heldSince (windowStart w o) row := by
    have hle : windowStart w o ≤ row.reservedAt := by
      have := w.positive
      rw [hat, windowStart]
      omega
    simp [heldSince, spendActive, hactive, hle]
  have hholds : NonnegHolds t.rail := fun r hr _ => hn.reservations r hr
  have hreb := heldUnder_put_free hfree hin (· = "rebalance")
  have hboltz := heldUnder_put_free hfree hin (· = "boltz")
  have hledger := heldUnder_put_free hfree hin ledgerHold
  have hreb0 := heldUnder_nonneg hholds (windowStart w o) (· = "rebalance")
  have hboltz0 := heldUnder_nonneg hholds (windowStart w o) (· = "boltz")
  have hledger0 := heldUnder_nonneg hholds (windowStart w o) ledgerHold
  have hlegacy0 := windowLegacyHolds_nonneg hn (windowStart w o)
  obtain ⟨hspent, hreserved⟩ := rebalanceSpendComponent_ok hc
  obtain ⟨hspent', hreserved'⟩ := rebalanceSpendComponent_ok hc'
  have hcosts : (t.rail.putReservation row).costsSince (windowStart w o) =
      t.rail.costsSince (windowStart w o) := rfl
  have hlegacy : windowLegacyHolds (t.rail.putReservation row) (windowStart w o) =
      windowLegacyHolds t.rail (windowStart w o) := rfl
  have hother : otherSpent w o (t.putReservation row) = otherSpent w o t := rfl
  rw [hcosts] at hspent'
  rw [hlegacy] at hreserved'
  have ha := h.actual
  have ha' := h'.actual
  have hr := h.reserved
  rw [hreserved, max_eq_left (by omega), max_eq_left hboltz0, max_eq_left hledger0] at hr
  have hr' := reserved_put h'
  unfold BudgetStatus.total
  by_cases hcat : row.category = "rebalance"
  · simp [hcat, ledgerHold] at hreb hboltz hledger
    omega
  · by_cases hb : row.category = "boltz"
    · simp [hb, ledgerHold] at hreb hboltz hledger
      omega
    · simp [hcat, hb, ledgerHold] at hreb hboltz hledger
      omega

/-- There the gate repeated at the transaction decides whether the budget still holds. -/
theorem granted_within_iff {limit : ℤ} {c c' : RebalanceSpendComponent}
    (hn : NonnegAmounts t.rail)
    (hfree : t.rail.spendReservations.find? row.reservationId = none)
    (hactive : row.status = .active) (hat : row.reservedAt = o.now) (hrow : 0 < row.reservedSats)
    (h : Reports w o t b c) (hc : rebalanceSpendComponent t.rail w.hours o.now = .ok c)
    (h' : Reports w o (t.putReservation row) b' c')
    (hc' : rebalanceSpendComponent (t.rail.putReservation row) w.hours o.now = .ok c')
    (hb : b.effectiveBudgetSats = limit) (hb' : b'.effectiveBudgetSats = limit) :
    b'.total ≤ b'.effectiveBudgetSats ↔ row.reservedSats ≤ b.remainingSats := by
  have htotal := total_put hn hfree hactive hat hrow.le h hc h' hc'
  have hremaining := h.remaining
  omega

end Exact

section Covered

variable {w : WindowHours} {o : Sources} {t : BudgetTables} {b : BudgetStatus}

theorem filter_sum_le (xs : List (String × ℤ)) (p q : String → Bool)
    (hpq : ∀ c, ¬ (p c = true ∧ q c = true)) (hn : ∀ r ∈ xs, 0 ≤ r.2) :
    ((xs.filter fun r => p r.1).map Prod.snd).sum + ((xs.filter fun r => q r.1).map Prod.snd).sum ≤
      (xs.map Prod.snd).sum := by
  induction xs with
  | nil => simp
  | cons r xs ih =>
    have hr : 0 ≤ r.2 := hn r List.mem_cons_self
    have ih := ih fun s hs => hn s (List.mem_cons_of_mem _ hs)
    have hnot := hpq r.1
    by_cases hp : p r.1
    · by_cases hq : q r.1
      · exact absurd ⟨hp, hq⟩ hnot
      · simp [hp, hq] at ih ⊢
        omega
    · by_cases hq : q r.1
      · simp [hp, hq] at ih ⊢
        omega
      · simp [hp, hq] at ih ⊢
        omega

/-- Without open and close costs in the window, the rail counts all that a status counts. -/
theorem total_le_windowTotal {c : RebalanceSpendComponent} (hn : NonnegAmounts t.rail)
    (hcosts : ∀ x ∈ t.rail.costsSince (windowStart w o), 0 ≤ x)
    (hopen : ((t.channelCosts.filter fun c => within (windowStart w o) c.openedAt).filterMap
      ChannelCost.openCostSats).sum ≤ 0)
    (hclose : ((t.closureCosts.filter fun c => within (windowStart w o) c.closedAt).filterMap
      ClosureCost.totalClosureCostSats).sum ≤ 0) (h : Reports w o t b c) :
    b.total ≤ t.rail.windowTotal (windowStart w o) := by
  have hholds : NonnegHolds t.rail := fun r hr _ => hn.reservations r hr
  have hsum := sum_windowHolds t.rail (windowStart w o)
  have hle : ((windowHolds t.rail (windowStart w o)).map Prod.snd).sum ≤ t.rail.spendHolds.sum := by
    have hmap : (windowHolds t.rail (windowStart w o)).map Prod.snd =
        ((t.rail.spendReservations.rows.filter (heldSince (windowStart w o))).map
          SpendReservation.reservedSats) := by
      rw [windowHolds, List.map_map]
      rfl
    rw [hmap]
    apply List.Sublist.sum_le_sum
    · exact (List.monotone_filter_right _ fun r hr => by
        simp only [heldSince, Bool.and_eq_true] at hr
        exact hr.1).map _
    · exact List.forall_mem_map.mpr fun r hr => hn.reservations r (List.mem_filter.mp hr).1
  have hlegacy0 : ∀ x ∈ t.rail.legacyHolds, 0 ≤ x :=
    List.forall_mem_map.mpr fun r hr => hn.legacy r (List.mem_filter.mp hr).1
  have hlegacy : (windowLegacyHolds t.rail (windowStart w o)).sum ≤ t.rail.legacyHolds.sum := by
    apply List.Sublist.sum_le_sum
    · exact (List.monotone_filter_right _ fun r hr => by
        simp only [legacyHeldSince, Bool.and_eq_true] at hr
        exact hr.1).map _
    · exact hlegacy0
  have hlegacyNonneg : 0 ≤ t.rail.legacyHolds.sum := List.sum_nonneg hlegacy0
  have hwindowLegacy := windowLegacyHolds_nonneg hn (windowStart w o)
  have hevent : ∀ r ∈ windowEvents t.rail (windowStart w o), 0 ≤ r.2 := by
    intro r hr
    obtain ⟨e, he, rfl⟩ := List.mem_map.mp hr
    exact hn.events e (List.mem_filter.mp he).1
  have hevents := filter_sum_le (windowEvents t.rail (windowStart w o)) (· = "boltz")
    (fun c => decide (c ∉ canonicalLedgerCategories)) (fun c hc => by
      obtain ⟨h1, h2⟩ := hc
      have h1 : c = "boltz" := by simpa using h1
      subst h1
      exact absurd h2 (by decide)) hevent
  have heventsSum : ((windowEvents t.rail (windowStart w o)).map Prod.snd).sum =
      (t.rail.eventsSince (windowStart w o)).sum := by
    rw [windowEvents, List.map_map]
    rfl
  have hparts : ∀ p : String → Bool,
      0 ≤ (((windowEvents t.rail (windowStart w o)).filter fun r => p r.1).map Prod.snd).sum :=
    fun p => List.sum_nonneg
      (List.forall_mem_map.mpr fun r hr => hevent r (List.mem_filter.mp hr).1)
  have hboltzEvents : 0 ≤ (ofCategory (windowEvents t.rail (windowStart w o)) "boltz").sum :=
    hparts (· = "boltz")
  have hledgerEvents : 0 ≤ (((windowEvents t.rail (windowStart w o)).filter fun r =>
      decide (r.1 ∉ canonicalLedgerCategories)).map Prod.snd).sum :=
    hparts fun c => decide (c ∉ canonicalLedgerCategories)
  have hreb0 := heldUnder_nonneg hholds (windowStart w o) (· = "rebalance")
  have hboltz0 := heldUnder_nonneg hholds (windowStart w o) (· = "boltz")
  have hledger0 := heldUnder_nonneg hholds (windowStart w o) ledgerHold
  have hcosts0 : 0 ≤ (t.rail.costsSince (windowStart w o)).sum := List.sum_nonneg hcosts
  have ha := h.actual
  have hr := h.reserved
  change ((windowHolds t.rail (windowStart w o)).map Prod.snd).sum =
    heldUnder t.rail (windowStart w o) (· = "rebalance") + _ + _ at hsum
  change (ofCategory (windowEvents t.rail (windowStart w o)) "boltz").sum + _ ≤ _ at hevents
  unfold otherSpent at ha
  unfold BudgetStatus.total windowTotal
  have hcomponents : max c.totalSpentSats 0 ≤ (t.rail.costsSince (windowStart w o)).sum ∧
      max c.totalReservedSats 0 ≤ (windowLegacyHolds t.rail (windowStart w o)).sum +
        heldUnder t.rail (windowStart w o) (· = "rebalance") := by
    have hcomponent := h.component
    cases hcase : rebalanceSpendComponent t.rail w.hours o.now with
    | panic =>
      rw [hcase] at hcomponent
      cases hcomponent
    | err e =>
      rw [hcase] at hcomponent
      cases hcomponent
      change max (0 : ℤ) 0 ≤ _ ∧ max (0 : ℤ) 0 ≤ _
      omega
    | ok d =>
      rw [hcase] at hcomponent
      cases hcomponent
      obtain ⟨hs, hr⟩ := rebalanceSpendComponent_ok hcase
      omega
  omega

theorem covered_grant_bounded {req : ReserveRequest} {row : SpendReservation} {limit left : ℤ}
    (hn : NonnegAmounts t.rail) (hcosts : ∀ x ∈ t.rail.costsSince (windowStart w o), 0 ≤ x)
    (hopen : ((t.channelCosts.filter fun c => within (windowStart w o) c.openedAt).filterMap
      ChannelCost.openCostSats).sum ≤ 0)
    (hclose : ((t.closureCosts.filter fun c => within (windowStart w o) c.closedAt).filterMap
      ClosureCost.totalClosureCostSats).sum ≤ 0)
    (hactive : row.status = .active) (hpos : 0 ≤ row.reservedSats)
    (hlimit : req.effectiveBudgetSats = some limit)
    (hgrants : Grants t.rail req (windowStart w o) row left)
    (hb : totalCostBudgetResponse w o (t.putReservation row) = .ok b) : b.total ≤ limit := by
  obtain ⟨c, hc⟩ := totalCostBudget_reports hb
  have hput : NonnegAmounts (t.putReservation row).rail := by
    refine ⟨fun r hr => ?_, hn.legacy, hn.events⟩
    rcases mem_insertOrReplace.mp hr with rfl | ⟨hr, -⟩
    · exact hpos
    · exact hn.reservations r hr
  have htotal := total_le_windowTotal hput hcosts hopen hclose hc
  have hroom := hgrants.daily limit hlimit
  have hwindow := windowTotal_putReservation t.rail hactive (windowStart w o)
  change b.total ≤ (t.rail.putReservation row).windowTotal (windowStart w o) at htotal
  unfold room at hroom
  omega

end Covered

section Race

theorem steady_of_fixed {o : Owner} (hfixed : o.sources.growthEnabled = false) (t : BudgetTables) :
    Steady o (max o.sources.dailyBudgetSats 0) t := by
  intro b hb
  obtain ⟨_, hc⟩ := totalCostBudget_reports hb
  obtain ⟨net, hnet⟩ := hc.effective
  simp only [effectiveBudget, hfixed, Bool.false_eq_true, if_false, Outcome.pure_eq_ok] at hnet
  omega

def dayOwner : Owner where
  window := ⟨24, by decide, by decide⟩
  sources := ⟨1000, false, 0.25, 0, 1700000000⟩

def openedTables : BudgetTables where
  rail := RailTables.empty (some [])
  channelCosts := [⟨some 600, some 1699999000⟩]
  closureCosts := []
  forwards := []
  dailyStats := []

def threeHundred (id : String) : SpendReserveParams where
  reservationId := id
  amountSats := 300
  category := "misc"
  positive := by decide

def twoCalls : Race := ⟨openedTables, [⟨threeHundred "a", .waiting⟩, ⟨threeHundred "b", .waiting⟩]⟩

/-- Racing reservations stay within the budget in every run whose granted reservations would
still pass their gate when their transaction starts. -/
theorem reserves_stay_within_budget [UnicodeCase] {o : Owner} {s : Race} {es : List Event}
    {limit : ℤ} (hn : NonnegHolds s.tables.rail) (hinit : Bounded o s.tables)
    (hrun : (machine o).Follows (Step o limit) s es) : Bounded o ((machine o).run s es).tables :=
  (run_invariant ⟨hn, hinit⟩ hrun).bounded

/-- The first of the two calls alone keeps the budget. -/
theorem first_reserve_within_budget : Bounded dayOwner
    ((@machine asciiCase dayOwner).run twoCalls [.check 0, .reserve 0 []]).tables := by
  let _ : UnicodeCase := asciiCase
  have hsteady : ∀ t, Steady dayOwner 1000 t := steady_of_fixed rfl
  have hstatus : dayOwner.status openedTables = .ok ⟨24, 1000, 0, 600, 0, 400⟩ := by decide
  refine @reserves_stay_within_budget _ _ _ _ 1000 ?_ ?_ ?_
  · intro r hr
    cases hr
  · intro b hb
    rw [show twoCalls.tables = openedTables from rfl, hstatus] at hb
    cases hb
    decide
  · refine ⟨by decide, ⟨hsteady _, hsteady _, trivial⟩, by decide,
      ⟨hsteady _, hsteady _, fun p b hp _ => ⟨_, hstatus, ?_⟩⟩, trivial⟩
    have hparams : threeHundred "a" = p := Option.some.inj (congrArg (Option.map Call.params) hp)
    rw [← hparams]
    decide

def raceEvents : List Event := [.check 0, .check 1, .reserve 0 [], .reserve 1 []]

/-- Both gates pass against the 400 sats left, and the rail, which does not count the open cost,
grants both: the status reports 1200 of 1000. -/
theorem racing_reserves_overspend :
    dayOwner.status openedTables = .ok ⟨24, 1000, 0, 600, 0, 400⟩ ∧
    (@machine asciiCase dayOwner).Follows (fun s _ => Steady dayOwner 1000 s.tables) twoCalls
      raceEvents ∧
    dayOwner.status ((@machine asciiCase dayOwner).run twoCalls raceEvents).tables =
      .ok ⟨24, 1000, 0, 600, 600, 0⟩ := by
  refine ⟨by decide +kernel, ?_, by decide +kernel⟩
  have hsteady : ∀ t, Steady dayOwner 1000 t := steady_of_fixed rfl
  refine ⟨by decide, hsteady _, by decide, hsteady _, by decide, hsteady _,
    by decide, hsteady _, trivial⟩

end Race

end SpendReserveRace
