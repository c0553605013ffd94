import RevenueOps.BudgetRailCalls
import Mathlib.Data.List.Sort
import Mathlib.Algebra.BigOperators.Group.List.Lemmas

/-! The unified cost budget: what its status adds up, over which tables and which window.
The status is read by its callers before and after a reservation; the rail of BudgetRail is
the check inside the transaction. The two count different tables. -/
namespace TotalCostBudget

open FallibleState SqlTransaction KeyedTable BudgetRail RailTables

structure ChannelCost where
  openCostSats : Option ℤ
  openedAt : Option ℤ
  deriving DecidableEq

structure ClosureCost where
  totalClosureCostSats : Option ℤ
  closedAt : Option ℤ
  deriving DecidableEq

structure ForwardFee where
  feeMsat : Option ℤ
  timestamp : Option ℤ
  deriving DecidableEq

structure DailyStat where
  totalFeeMsat : Option ℤ
  date : Option ℤ
  deriving DecidableEq

structure BudgetTables where
  rail : RailTables
  channelCosts : List ChannelCost
  closureCosts : List ClosureCost
  forwards : List ForwardFee
  dailyStats : List DailyStat
  deriving DecidableEq

def BudgetTables.putReservation (t : BudgetTables) (row : SpendReservation) : BudgetTables :=
  { t with rail := t.rail.putReservation row }

inductive ReadError where
  | sqlite (e : SqlError)
  | context (message : String)
  deriving DecidableEq

abbrev Read (α : Type) := Outcome ReadError α

def sumRead (xs : List ℤ) : Read ℤ :=
  match sumI64 xs with
  | .ok v => .ok v
  | .error e => .err (.sqlite e)

def checked (x : ℤ) : Read ℤ := Outcome.checked (checkedI64 x)

def checkedSum (xs : List ℤ) : Read ℤ := Outcome.checked (checkedTotal xs)

def within (since : ℤ) : Option ℤ → Bool
  | some ts => since ≤ ts
  | none => false

section Ledger

/-- Rows under a category, in the window of the ledger. -/
abbrev CategoryRows := List (String × ℤ)

def windowEvents (t : RailTables) (cutoff : ℤ) : CategoryRows :=
  (t.spendEvents.rows.filter (eventInWindow cutoff)).map fun e => (e.category, e.amountSats)

def heldSince (cutoff : ℤ) (r : SpendReservation) : Bool :=
  spendActive r && decide (cutoff ≤ r.reservedAt)

def windowHolds (t : RailTables) (cutoff : ℤ) : CategoryRows :=
  (t.spendReservations.rows.filter (heldSince cutoff)).map fun r => (r.category, r.reservedSats)

def ofCategory (rows : CategoryRows) (category : String) : List ℤ :=
  (rows.filter fun r => r.1 = category).map Prod.snd

/-- The keys of a BTreeMap over the categories of the rows. -/
def categories (rows : CategoryRows) : List String :=
  (rows.map Prod.fst).dedup.insertionSort (· ≤ ·)

/-- SELECT category, SUM(…) … GROUP BY category. -/
def categoryTotals (rows : CategoryRows) : Read CategoryRows :=
  (categories rows).mapM fun category => do
    let total ← sumRead (ofCategory rows category)
    pure (category, total)

def asI64OrZero (totals : CategoryRows) (category : String) : ℤ := (totals.lookup category).getD 0

structure SpendLedgerAggregates where
  spentByCategory : CategoryRows
  reservedSats : ℤ
  reservedByCategory : CategoryRows

/-- The window of a ledger read: its length in hours is at least one. -/
def checkedSpendWindow (windowHours now : ℤ) : Read ℤ :=
  match checkedI64 (max windowHours 1 * 3600) with
  | none => .err (.context "window_hours exceeds the supported timestamp range")
  | some seconds =>
    match checkedI64 (now - seconds) with
    | none => .err (.context "window_hours produces an unsupported cutoff")
    | some cutoff => .ok cutoff

def spendLedgerAggregates (t : RailTables) (windowHours now : ℤ) : Read SpendLedgerAggregates := do
  let cutoff ← checkedSpendWindow windowHours now
  let _ ← sumRead ((windowEvents t cutoff).map Prod.snd)
  let reservedSats ← sumRead ((windowHolds t cutoff).map Prod.snd)
  let spentByCategory ← categoryTotals (windowEvents t cutoff)
  let reservedByCategory ← categoryTotals (windowHolds t cutoff)
  pure ⟨spentByCategory, reservedSats, reservedByCategory⟩

def canonicalLedgerCategories : List String :=
  ["channel_open", "channel_close", "rebalance", "boltz"]

/-- What normalize_generic_ledger keeps of the spend: the counted total, and the categories that
it leaves to other components. -/
structure GenericLedger where
  spentSats : ℤ
  excluded : CategoryRows

def normalizeGenericLedger (raw : SpendLedgerAggregates) : Read GenericLedger := do
  let counted := raw.spentByCategory.filter fun r => r.1 ∉ canonicalLedgerCategories
  let excluded := raw.spentByCategory.filter fun r => r.1 ∈ canonicalLedgerCategories
  let spentSats ← checkedSum (counted.map Prod.snd)
  pure ⟨spentSats, excluded⟩

end Ledger

section Components

structure RebalanceSpendComponent where
  totalSpentSats : ℤ
  totalReservedSats : ℤ
  deriving DecidableEq

def legacyHeldSince (cutoff : ℤ) (r : BudgetReservation) : Bool :=
  legacyActive r && decide (cutoff ≤ r.reservedAt)

def windowLegacyHolds (t : RailTables) (cutoff : ℤ) : List ℤ :=
  (t.budgetReservations.rows.filter (legacyHeldSince cutoff)).map BudgetReservation.reservedSats

/-- The job counts come first, so a missing history table fails the whole component. -/
def rebalanceSpendComponent (t : RailTables) (windowHours now : ℤ) :
    Read RebalanceSpendComponent := do
  let span ← checked (windowHours * 3600)
  let cutoff ← checked (now - span)
  match t.rebalanceHistory with
  | none => .err (.sqlite .noSuchTable)
  | some _ => do
    let spent ← sumRead (t.costsSince cutoff)
    let legacyReserved ← sumRead (windowLegacyHolds t cutoff)
    let unifiedReserved ← sumRead (ofCategory (windowHolds t cutoff) "rebalance")
    let reserved ← checked (legacyReserved + unifiedReserved)
    pure ⟨spent, reserved⟩

/-- A failed read of the component counts as zeros; a panic does not come back. -/
def rebalanceComponentValue : Read RebalanceSpendComponent → Read RebalanceSpendComponent
  | .ok component => .ok component
  | .err _ => .ok ⟨0, 0⟩
  | .panic => .panic

def openingCostsSince (t : BudgetTables) (since : ℤ) : Read ℤ :=
  sumRead ((t.channelCosts.filter fun c => within since c.openedAt).filterMap
    ChannelCost.openCostSats)

def closureCostsSince (t : BudgetTables) (since : ℤ) : Read ℤ :=
  sumRead ((t.closureCosts.filter fun c => within since c.closedAt).filterMap
    ClosureCost.totalClosureCostSats)

/-- Days start at midnight; i64 division truncates. An integer sum past i64 turns into a real,
which is no i64. -/
def totalRoutingRevenueMsat (t : BudgetTables) (since now : ℤ) : Read ℤ := do
  let sinceDay := since.tdiv 86400 * 86400
  let todayStart := now.tdiv 86400 * 86400
  let live ← sumRead ((t.forwards.filter fun f => within since f.timestamp).filterMap
    ForwardFee.feeMsat)
  let rolled ← sumRead ((t.dailyStats.filter fun d => within sinceDay d.date &&
    d.date.any (· < todayStart)).filterMap DailyStat.totalFeeMsat)
  match checkedI64 (live + rolled) with
  | some total => .ok total
  | none => .err (.sqlite .integerOverflow)

end Components

section Growth

/-- The settings of the budget, resolved from the configuration, and the clock. -/
structure Sources where
  dailyBudgetSats : ℤ
  growthEnabled : Bool
  growthEarnedFraction : Float
  growthHardCeilingSats : ℤ
  now : ℤ

def clampFraction (value : Float) : Float :=
  if value.isFinite then
    if value < 0.0 then 0.0 else if 1.0 < value then 1.0 else value
  else 0.0

def earnedCredit (positiveProfit : ℤ) (fraction : Float) : ℤ :=
  ((Float.ofInt positiveProfit * clampFraction fraction).floor).toInt64.toInt

structure GrowthBudgetStatus where
  effectiveBudgetSats : ℤ
  remainingSats : ℤ

/-- The base budget, or with growth enabled the base lifted by earned credit under the ceiling. -/
def effectiveBudget (s : Sources) (netProfit : ℤ) : Read ℤ :=
  let baseBudget := max (max s.dailyBudgetSats 0) 0
  let ceiling := if 0 < s.growthHardCeilingSats then s.growthHardCeilingSats
    else max s.dailyBudgetSats 0
  let hardCeiling := max baseBudget (max ceiling 0)
  if s.growthEnabled then do
    let uncapped ← checked (baseBudget + earnedCredit (max netProfit 0) s.growthEarnedFraction)
    pure (min (max baseBudget uncapped) hardCeiling)
  else pure baseBudget

/-- compute_growth_budget_status without a fleet prior, which its only caller never has. -/
def computeGrowthBudgetStatus (s : Sources) (netProfit actualSpent reserved : ℤ) :
    Read GrowthBudgetStatus := do
  let effective ← effectiveBudget s netProfit
  let unspent ← checked (effective - max actualSpent 0)
  let remaining ← checked (unspent - max reserved 0)
  pure ⟨effective, max remaining 0⟩

end Growth

structure BudgetStatus where
  windowHours : ℤ
  effectiveBudgetSats : ℤ
  revenueSats : ℤ
  actualSpentSats : ℤ
  reservedSats : ℤ
  remainingSats : ℤ
  deriving DecidableEq

def BudgetStatus.total (b : BudgetStatus) : ℤ := b.actualSpentSats + b.reservedSats

/-- build_total_cost_budget with every component fetched. -/
def buildTotalCostBudget (windowHours : ℤ) (s : Sources) (revenueSats openCost closureCost : ℤ)
    (rebalance : RebalanceSpendComponent) (raw : SpendLedgerAggregates) : Read BudgetStatus := do
  let ledger ← normalizeGenericLedger raw
  let boltzSpent := asI64OrZero ledger.excluded "boltz"
  let actual ← checkedSum [max rebalance.totalSpentSats 0, max boltzSpent 0, max openCost 0,
    max closureCost 0, max ledger.spentSats 0]
  let rebalanceReserved := asI64OrZero raw.reservedByCategory "rebalance"
  let boltzReserved := asI64OrZero raw.reservedByCategory "boltz"
  let unclaimed ← checked (raw.reservedSats - rebalanceReserved)
  let ledgerOnly ← checked (unclaimed - boltzReserved)
  let reserved ← checkedSum [max rebalance.totalReservedSats 0, max boltzReserved 0,
    max (max ledgerOnly 0) 0]
  let netProfit ← checked (revenueSats - actual)
  let growth ← computeGrowthBudgetStatus s netProfit actual reserved
  pure ⟨windowHours, growth.effectiveBudgetSats, revenueSats, actual, reserved,
    growth.remainingSats⟩

/-- The window that parse_window_hours lets through. -/
structure WindowHours where
  hours : ℤ
  positive : 1 ≤ hours
  week : hours ≤ 168

def totalCostBudgetResponse (w : WindowHours) (s : Sources) (t : BudgetTables) :
    Read BudgetStatus := do
  let since ← checked (s.now - w.hours * 3600)
  let rebalance ← rebalanceComponentValue (rebalanceSpendComponent t.rail w.hours s.now)
  let aggregates ← spendLedgerAggregates t.rail w.hours s.now
  let revenueMsat ← totalRoutingRevenueMsat t since s.now
  let openCost ← openingCostsSince t since
  let closureCost ← closureCostsSince t since
  buildTotalCostBudget w.hours s (revenueMsat / 1000) openCost closureCost rebalance aggregates

section Sums

theorem sumRead_ok {xs : List ℤ} {v : ℤ} (h : sumRead xs = .ok v) : v = xs.sum := by
  unfold sumRead at h
  split at h
  · next w hw =>
    cases h
    exact sumI64_eq hw
  · cases h

theorem checked_ok {x v : ℤ} (h : checked x = .ok v) : v = x :=
  checkedI64_eq (Outcome.checked_eq_ok.mp h)

theorem checkedSum_ok {xs : List ℤ} {v : ℤ} (h : checkedSum xs = .ok v) : v = xs.sum :=
  checkedTotal_eq (Outcome.checked_eq_ok.mp h)

theorem foldlM_of_fits {xs : List ℤ} {a : ℤ} (ha : 0 ≤ a) (hn : ∀ x ∈ xs, 0 ≤ x)
    (hle : a + xs.sum ≤ i64Max) :
    xs.foldlM (fun acc x => checkedI64 (acc + x)) a = some (a + xs.sum) := by
  induction xs generalizing a with
  | nil => simp
  | cons x xs ih =>
    rw [List.sum_cons] at hle
    have hx : 0 ≤ x := hn x List.mem_cons_self
    have hrest : ∀ y ∈ xs, 0 ≤ y := fun y hy => hn y (List.mem_cons_of_mem _ hy)
    have hsum : 0 ≤ xs.sum := List.sum_nonneg hrest
    have hfits : checkedI64 (a + x) = some (a + x) := by
      unfold checkedI64
      rw [if_pos]
      constructor
      · unfold i64Min
        omega
      · omega
    rw [List.foldlM_cons, hfits, Option.bind_eq_bind, Option.bind_some,
      ih (by omega) hrest (by omega), List.sum_cons, add_assoc]

theorem le_i64Max_of_foldlM {xs : List ℤ} {a v : ℤ} (ha : a ≤ i64Max)
    (h : xs.foldlM (fun acc x => checkedI64 (acc + x)) a = some v) : v ≤ i64Max := by
  induction xs generalizing a with
  | nil =>
    cases h
    exact ha
  | cons x xs ih =>
    rw [List.foldlM_cons] at h
    cases hc : checkedI64 (a + x) with
    | none => simp [hc] at h
    | some b =>
      simp only [hc, Option.bind_eq_bind, Option.bind_some] at h
      refine ih ?_ h
      unfold checkedI64 at hc
      split at hc
      · next hb =>
        cases hc
        exact hb.2
      · cases hc

theorem sumRead_sublist {xs ys : List ℤ} {v : ℤ} (hsub : xs.Sublist ys) (hn : ∀ y ∈ ys, 0 ≤ y)
    (h : sumRead ys = .ok v) : sumRead xs = .ok xs.sum := by
  have hv := sumRead_ok h
  have hxs : ∀ x ∈ xs, 0 ≤ x := fun x hx => hn x (hsub.subset hx)
  have hle : xs.sum ≤ ys.sum := hsub.sum_le_sum hn
  have hfits : ys.sum ≤ i64Max := by
    unfold sumRead sumI64 at h
    cases hc : checkedTotal ys with
    | none => simp [hc] at h
    | some w =>
      have hw := le_i64Max_of_foldlM (by decide) hc
      rw [checkedTotal_eq hc] at hw
      exact hw
  have hsum := foldlM_of_fits le_rfl hxs (by omega)
  rw [zero_add] at hsum
  unfold sumRead sumI64 checkedTotal
  rw [hsum]

end Sums

section Categories

theorem categoryTotals_ok {rows totals : CategoryRows} (h : categoryTotals rows = .ok totals) :
    totals = (categories rows).map fun c => (c, (ofCategory rows c).sum) := by
  have hmap := Outcome.mapM_eq_ok.mp h
  have hvalue : ∀ (cs : List String) (ts : CategoryRows),
      cs.map (fun c => (do
        let total ← sumRead (ofCategory rows c)
        pure (c, total) : Read (String × ℤ))) = ts.map Outcome.ok →
      ts = cs.map fun c => (c, (ofCategory rows c).sum) := by
    intro cs
    induction cs with
    | nil =>
      intro ts hts
      simpa using hts.symm
    | cons c cs ih =>
      intro ts hts
      cases ts with
      | nil => simp at hts
      | cons p ts =>
        simp only [List.map_cons, List.cons.injEq] at hts
        obtain ⟨total, htotal, hp⟩ := Outcome.bind_eq_ok.mp hts.1
        rw [List.map_cons, ← ih ts hts.2, ← Outcome.pure_eq_ok.mp hp, sumRead_ok htotal]
  exact hvalue _ _ hmap

theorem mem_categories {rows : CategoryRows} {c : String} :
    c ∈ categories rows ↔ c ∈ rows.map Prod.fst := by
  rw [categories, (List.perm_insertionSort _ _).mem_iff, List.mem_dedup]

theorem nodup_categories (rows : CategoryRows) : (categories rows).Nodup :=
  (List.perm_insertionSort _ _).nodup_iff.mpr (List.nodup_dedup _)

theorem ofCategory_of_not_mem {rows : CategoryRows} {c : String} (h : c ∉ rows.map Prod.fst) :
    ofCategory rows c = [] := by
  rw [ofCategory, List.map_eq_nil_iff, List.filter_eq_nil_iff]
  intro r hr hc
  exact h (List.mem_map.mpr ⟨r, hr, by simpa using hc⟩)

theorem lookup_map_sum (rows : CategoryRows) (cs : List String) (c : String) :
    (cs.map fun d => (d, (ofCategory rows d).sum)).lookup c =
      if c ∈ cs then some (ofCategory rows c).sum else none := by
  induction cs with
  | nil => rfl
  | cons d cs ih =>
    by_cases hd : c = d
    · simp [hd]
    · have hne : (c == d) = false := by simpa using hd
      simp [List.lookup_cons, hne, ih, hd]

theorem asI64OrZero_totals {rows totals : CategoryRows} (h : categoryTotals rows = .ok totals)
    (c : String) : asI64OrZero totals c = (ofCategory rows c).sum := by
  rw [categoryTotals_ok h, asI64OrZero, lookup_map_sum]
  by_cases hc : c ∈ categories rows
  · rw [if_pos hc, Option.getD_some]
  · rw [if_neg hc, ofCategory_of_not_mem (mt mem_categories.mpr hc)]
    rfl

theorem lookup_filter (totals : CategoryRows) (p : String → Bool) {c : String} (hc : p c = true) :
    (totals.filter fun r => p r.1).lookup c = totals.lookup c := by
  induction totals with
  | nil => rfl
  | cons r totals ih =>
    obtain ⟨d, v⟩ := r
    by_cases hd : c = d
    · subst hd
      simp [hc]
    · have hne : (c == d) = false := by simpa using hd
      by_cases hp : p d
      · simp [hp, List.lookup_cons, hne, ih]
      · simp [hp, List.lookup_cons, hne, ih]

/-- Sums by key over distinct keys make up the sum over the rows with one of the keys. -/
theorem sum_by_category (rows : CategoryRows) {cs : List String} (hn : cs.Nodup) :
    (cs.map fun c => (ofCategory rows c).sum).sum =
      ((rows.filter fun r => decide (r.1 ∈ cs)).map Prod.snd).sum := by
  induction cs with
  | nil => simp
  | cons c cs ih =>
    obtain ⟨hc, hcs⟩ := List.nodup_cons.mp hn
    rw [List.map_cons, List.sum_cons, ih hcs, ofCategory]
    clear ih
    induction rows with
    | nil => rfl
    | cons r rows ihr =>
      by_cases hr : r.1 = c
      · simp only [List.filter_cons, hr, decide_true, if_true, List.map_cons,
          List.sum_cons] at ihr ⊢
        simp only [hc, decide_false, Bool.false_eq_true, if_false, List.mem_cons_self, decide_true,
          if_true, List.map_cons, List.sum_cons]
        omega
      · by_cases hin : r.1 ∈ cs
        · simp only [List.filter_cons, hr, hin, List.mem_cons, false_or, decide_true, decide_false,
            Bool.false_eq_true, if_true, if_false, List.map_cons, List.sum_cons] at ihr ⊢
          omega
        · simp only [List.filter_cons, hr, hin, List.mem_cons, false_or, decide_false,
            Bool.false_eq_true, if_false] at ihr ⊢
          exact ihr

theorem counted_totals {rows totals : CategoryRows} (h : categoryTotals rows = .ok totals)
    (p : String → Bool) : ((totals.filter fun r => p r.1).map Prod.snd).sum =
      ((rows.filter fun r => p r.1).map Prod.snd).sum := by
  have hsplit : (totals.filter fun r => p r.1).map Prod.snd =
      ((categories rows).filter p).map fun c => (ofCategory rows c).sum := by
    rw [categoryTotals_ok h, List.filter_map, List.map_map]
    rfl
  rw [hsplit, sum_by_category rows ((nodup_categories rows).filter _)]
  congr 2
  apply List.filter_congr
  intro r hr
  have hmem : r.1 ∈ categories rows := mem_categories.mpr (List.mem_map_of_mem hr)
  simp [hmem]

end Categories

section Report

def windowStart (w : WindowHours) (s : Sources) : ℤ := s.now - w.hours * 3600

/-- The active amounts reserved inside the window, under the selected categories. -/
def heldUnder (t : RailTables) (cutoff : ℤ) (p : String → Bool) : ℤ :=
  (((windowHolds t cutoff).filter fun r => p r.1).map Prod.snd).sum

def ledgerHold (category : String) : Bool := category ≠ "rebalance" && category ≠ "boltz"

def otherSpent (w : WindowHours) (s : Sources) (t : BudgetTables) : ℤ :=
  max (ofCategory (windowEvents t.rail (windowStart w s)) "boltz").sum 0 +
  max ((t.channelCosts.filter fun c => within (windowStart w s) c.openedAt).filterMap
    ChannelCost.openCostSats).sum 0 +
  max ((t.closureCosts.filter fun c => within (windowStart w s) c.closedAt).filterMap
    ClosureCost.totalClosureCostSats).sum 0 +
  max (((windowEvents t.rail (windowStart w s)).filter fun r =>
    r.1 ∉ canonicalLedgerCategories).map Prod.snd).sum 0

structure Reports (w : WindowHours) (s : Sources) (t : BudgetTables) (b : BudgetStatus)
    (c : RebalanceSpendComponent) : Prop where
  component : rebalanceComponentValue (rebalanceSpendComponent t.rail w.hours s.now) = .ok c
  readable : ∃ v, sumRead ((windowHolds t.rail (windowStart w s)).map Prod.snd) = .ok v
  actual : b.actualSpentSats = max c.totalSpentSats 0 + otherSpent w s t
  reserved : b.reservedSats = max c.totalReservedSats 0 +
    max (heldUnder t.rail (windowStart w s) (· = "boltz")) 0 +
    max (heldUnder t.rail (windowStart w s) ledgerHold) 0
  remaining : b.remainingSats = max (b.effectiveBudgetSats - b.total) 0
  window : b.windowHours = w.hours
  effective : ∃ net, effectiveBudget s net = .ok b.effectiveBudgetSats

theorem checkedSpendWindow_ok {w : WindowHours} {s : Sources} {cutoff : ℤ}
    (h : checkedSpendWindow w.hours s.now = .ok cutoff) : cutoff = windowStart w s := by
  have hmax : max w.hours 1 = w.hours := max_eq_left w.positive
  rw [checkedSpendWindow, hmax] at h
  cases hs : checkedI64 (w.hours * 3600) with
  | none => simp [hs] at h
  | some seconds =>
    cases hc : checkedI64 (s.now - seconds) with
    | none => simp [hs, hc] at h
    | some c =>
      simp only [hs, hc, Outcome.ok.injEq] at h
      rw [← h, checkedI64_eq hc, checkedI64_eq hs, windowStart]

theorem sum_windowHolds (t : RailTables) (cutoff : ℤ) :
    ((windowHolds t cutoff).map Prod.snd).sum =
      (ofCategory (windowHolds t cutoff) "rebalance").sum +
      heldUnder t cutoff (· = "boltz") + heldUnder t cutoff ledgerHold := by
  unfold ofCategory heldUnder
  induction windowHolds t cutoff with
  | nil => rfl
  | cons r rows ih =>
    by_cases hr : r.1 = "rebalance"
    · simp only [List.filter_cons, hr, ledgerHold, List.map_cons, List.sum_cons] at ih ⊢
      simp at ih ⊢
      omega
    · by_cases hb : r.1 = "boltz"
      · simp only [List.filter_cons, hb, ledgerHold, List.map_cons, List.sum_cons] at ih ⊢
        simp at ih ⊢
        omega
      · simp [hr, hb, ledgerHold] at ih ⊢
        omega

theorem growth_effective {s : Sources} {netProfit actual reserved : ℤ} {g : GrowthBudgetStatus}
    (h : computeGrowthBudgetStatus s netProfit actual reserved = .ok g) :
    effectiveBudget s netProfit = .ok g.effectiveBudgetSats := by
  obtain ⟨effective, heffective, h⟩ := Outcome.bind_eq_ok.mp h
  obtain ⟨_, -, h⟩ := Outcome.bind_eq_ok.mp h
  obtain ⟨_, -, h⟩ := Outcome.bind_eq_ok.mp h
  rw [heffective, ← Outcome.pure_eq_ok.mp h]

theorem growth_remaining {s : Sources} {netProfit actual reserved : ℤ} {g : GrowthBudgetStatus}
    (ha : 0 ≤ actual) (hr : 0 ≤ reserved)
    (h : computeGrowthBudgetStatus s netProfit actual reserved = .ok g) :
    g.remainingSats = max (g.effectiveBudgetSats - (actual + reserved)) 0 := by
  obtain ⟨effective, -, h⟩ := Outcome.bind_eq_ok.mp h
  obtain ⟨left, hleft, h⟩ := Outcome.bind_eq_ok.mp h
  obtain ⟨rest, hrest, h⟩ := Outcome.bind_eq_ok.mp h
  rw [← Outcome.pure_eq_ok.mp h, checked_ok hrest, checked_ok hleft, max_eq_left ha, max_eq_left hr]
  change max (effective - actual - reserved) 0 = max (effective - (actual + reserved)) 0
  omega

theorem totalCostBudget_reports {w : WindowHours} {s : Sources} {t : BudgetTables}
    {b : BudgetStatus} (h : totalCostBudgetResponse w s t = .ok b) : ∃ c, Reports w s t b c := by
  obtain ⟨since, hsince, h⟩ := Outcome.bind_eq_ok.mp h
  obtain ⟨c, hc, h⟩ := Outcome.bind_eq_ok.mp h
  obtain ⟨raw, hraw, h⟩ := Outcome.bind_eq_ok.mp h
  obtain ⟨revenue, -, h⟩ := Outcome.bind_eq_ok.mp h
  obtain ⟨opened, hopened, h⟩ := Outcome.bind_eq_ok.mp h
  obtain ⟨closed, hclosed, h⟩ := Outcome.bind_eq_ok.mp h
  have hstart : since = windowStart w s := checked_ok hsince
  obtain ⟨cutoff, hcutoff, hraw⟩ := Outcome.bind_eq_ok.mp hraw
  have hcut := checkedSpendWindow_ok hcutoff
  subst hcut
  obtain ⟨_, -, hraw⟩ := Outcome.bind_eq_ok.mp hraw
  obtain ⟨held, hheld, hraw⟩ := Outcome.bind_eq_ok.mp hraw
  obtain ⟨spent, hspent, hraw⟩ := Outcome.bind_eq_ok.mp hraw
  obtain ⟨holds, hholds, hraw⟩ := Outcome.bind_eq_ok.mp hraw
  have hraw := (Outcome.pure_eq_ok.mp hraw).symm
  subst hraw
  obtain ⟨ledger, hledger, h⟩ := Outcome.bind_eq_ok.mp h
  obtain ⟨counted, hcounted, hledger⟩ := Outcome.bind_eq_ok.mp hledger
  have hledger := (Outcome.pure_eq_ok.mp hledger).symm
  subst hledger
  obtain ⟨actual, hactual, h⟩ := Outcome.bind_eq_ok.mp h
  obtain ⟨unclaimed, hunclaimed, h⟩ := Outcome.bind_eq_ok.mp h
  obtain ⟨ledgerOnly, hledgerOnly, h⟩ := Outcome.bind_eq_ok.mp h
  obtain ⟨reserved, hreserved, h⟩ := Outcome.bind_eq_ok.mp h
  obtain ⟨net, -, h⟩ := Outcome.bind_eq_ok.mp h
  obtain ⟨growth, hgrowth, h⟩ := Outcome.bind_eq_ok.mp h
  have hb := (Outcome.pure_eq_ok.mp h).symm
  subst hb
  have hboltzSpent : asI64OrZero (spent.filter fun r => decide (r.1 ∈ canonicalLedgerCategories))
      "boltz" = (ofCategory (windowEvents t.rail (windowStart w s)) "boltz").sum := by
    rw [← asI64OrZero_totals hspent, asI64OrZero, asI64OrZero,
      lookup_filter spent (fun c => decide (c ∈ canonicalLedgerCategories)) (by decide)]
  have hactual' := checkedSum_ok hactual
  have hreserved' := checkedSum_ok hreserved
  simp only [List.sum_cons, List.sum_nil] at hactual' hreserved'
  have hcounted' := checkedSum_ok hcounted
  rw [counted_totals hspent fun c => decide (c ∉ canonicalLedgerCategories)] at hcounted'
  refine ⟨c, hc, ⟨held, hheld⟩, ?_, ?_, ?_, rfl, _, growth_effective hgrowth⟩
  · change actual = _
    rw [hactual', hboltzSpent, sumRead_ok hopened, sumRead_ok hclosed, hcounted',
      hstart, otherSpent]
    omega
  · have hall := sumRead_ok hheld
    rw [sum_windowHolds] at hall
    have hboltz : asI64OrZero holds "boltz" =
        heldUnder t.rail (windowStart w s) (· = "boltz") := asI64OrZero_totals hholds "boltz"
    have hrest : ledgerOnly = heldUnder t.rail (windowStart w s) ledgerHold := by
      have h1 : unclaimed = held - (ofCategory (windowHolds t.rail (windowStart w s))
          "rebalance").sum := by
        rw [← asI64OrZero_totals hholds]
        exact checked_ok hunclaimed
      have h2 : ledgerOnly = unclaimed - asI64OrZero holds "boltz" := checked_ok hledgerOnly
      omega
    change reserved = _
    rw [hreserved', hrest, hboltz]
    omega
  · have ha : 0 ≤ actual := by omega
    have hr : 0 ≤ reserved := by omega
    exact growth_remaining ha hr hgrowth

end Report

end TotalCostBudget
