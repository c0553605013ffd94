import RevenueOps.FeeEnvelope

/-! The partial-fill ladder: strictly descending rungs that end on the floor, and a budget share
for each rung that stays inside the whole budget without lowering the fee rate. -/
namespace PartialLadder

open RustNumber RebalanceEngine FeeEnvelope

section Halving

/-- What the halving loop has collected before it looks at `current`: descending amounts, all
above it and inside the ladder's range. -/
structure Collected (original minAmount current : ℤ) (amounts : List ℤ) : Prop where
  descending : amounts.Pairwise (· > ·)
  above : ∀ a ∈ amounts, current < a
  bounds : ∀ a ∈ amounts, minAmount ≤ a ∧ a < original
  length : amounts.length ≤ 6

theorem Collected.notMem {original minAmount current : ℤ} {amounts : List ℤ}
    (h : Collected original minAmount current amounts) : current ∉ amounts := by
  intro hmem
  exact lt_irrefl current (h.above current hmem)

theorem Collected.step {original minAmount current : ℤ} {amounts : List ℤ}
    (h : Collected original minAmount current amounts) (hmin : 0 < minAmount)
    (hgo : minAmount ≤ current) (hroom : amounts.length < 6) (hlt : current < original) :
    Collected original minAmount (current.tdiv 2) (amounts ++ [current]) := by
  have hhalf : current.tdiv 2 < current := by
    rw [Int.tdiv_eq_ediv_of_nonneg (by omega)]
    omega
  constructor
  · rw [List.pairwise_append]
    refine ⟨h.descending, List.pairwise_singleton _ _, ?_⟩
    intro a ha b hb
    obtain rfl := List.mem_singleton.mp hb
    exact h.above a ha
  · intro a ha
    rcases List.mem_append.mp ha with ha | ha
    · exact hhalf.trans (h.above a ha)
    · obtain rfl := List.mem_singleton.mp ha
      exact hhalf
  · intro a ha
    rcases List.mem_append.mp ha with ha | ha
    · exact h.bounds a ha
    · obtain rfl := List.mem_singleton.mp ha
      exact ⟨hgo, hlt⟩
  · rw [List.length_append, List.length_singleton]
    omega

/-- A round that goes on is the next round of the loop: neither the repeat test nor the stall
test fires. -/
theorem halvings_step {original minAmount current : ℤ} {amounts : List ℤ} {fuel : ℕ}
    (h : Collected original minAmount current amounts) (hmin : 0 < minAmount)
    (hgo : minAmount ≤ current) (hroom : amounts.length < 6) (hlt : current < original) :
    halvings original minAmount (fuel + 1) current amounts =
      halvings original minAmount fuel (current.tdiv 2) (amounts ++ [current]) := by
  have hhalf : current.tdiv 2 ≠ current := by
    rw [Int.tdiv_eq_ediv_of_nonneg (by omega)]
    omega
  rw [halvings, if_pos ⟨hgo, hroom⟩]
  simp only [hlt, h.notMem, not_false_eq_true, and_self, if_true, hhalf, if_false]

theorem halvings_stop {original minAmount current : ℤ} {amounts : List ℤ} (fuel : ℕ)
    (hstop : ¬(minAmount ≤ current ∧ amounts.length < 6)) :
    halvings original minAmount fuel current amounts = amounts := by
  cases fuel with
  | zero => rfl
  | succ fuel => rw [halvings, if_neg hstop]

/-- The loop keeps the rungs descending, whichever of its conditions stops it. -/
theorem halvings_collected {original minAmount current : ℤ} {amounts : List ℤ} {fuel : ℕ}
    (h : Collected original minAmount current amounts) (hmin : 0 < minAmount)
    (hlt : current < original) :
    (halvings original minAmount fuel current amounts).Pairwise (· > ·) ∧
      (halvings original minAmount fuel current amounts).length ≤ 6 := by
  induction fuel generalizing current amounts with
  | zero => exact ⟨h.descending, h.length⟩
  | succ fuel ih =>
    by_cases hgo : minAmount ≤ current ∧ amounts.length < 6
    · rw [halvings_step h hmin hgo.1 hgo.2 hlt]
      apply ih (h.step hmin hgo.1 hgo.2 hlt)
      rw [Int.tdiv_eq_ediv_of_nonneg (by omega)]
      omega
    · rw [halvings_stop _ hgo]
      exact ⟨h.descending, h.length⟩

/-- Every round but the last records an amount, so six rounds are enough for any start. -/
theorem halvings_stable {original minAmount current : ℤ} {amounts : List ℤ} {fuel : ℕ}
    (h : Collected original minAmount current amounts) (hmin : 0 < minAmount)
    (hlt : current < original) (hfuel : 6 ≤ fuel + amounts.length) (extra : ℕ) :
    halvings original minAmount (fuel + extra) current amounts =
      halvings original minAmount fuel current amounts := by
  induction fuel generalizing current amounts with
  | zero =>
    have hstop : ¬(minAmount ≤ current ∧ amounts.length < 6) := by omega
    rw [halvings_stop _ hstop, halvings_stop _ hstop]
  | succ fuel ih =>
    by_cases hgo : minAmount ≤ current ∧ amounts.length < 6
    · have hfuels : fuel + 1 + extra = (fuel + extra) + 1 := by omega
      have hnext : current.tdiv 2 < original := by
        rw [Int.tdiv_eq_ediv_of_nonneg (by omega)]
        omega
      have hrounds : 6 ≤ fuel + (amounts ++ [current]).length := by
        rw [List.length_append, List.length_singleton]
        omega
      rw [hfuels, halvings_step h hmin hgo.1 hgo.2 hlt, halvings_step h hmin hgo.1 hgo.2 hlt]
      exact ih (h.step hmin hgo.1 hgo.2 hlt) hnext hrounds
    · rw [halvings_stop _ hgo, halvings_stop _ hgo]

end Halving

section Ladder

/-- The smallest rung: 1000 to 5000 sats around half of the amount, below the amount. -/
def ladderFloor (amountSats : ℤ) : ℤ :=
  min (amountSats - 1) (max 1000 (min 5000 (amountSats.tdiv 2)))

theorem ladderFloor_lt (amountSats : ℤ) : ladderFloor amountSats < amountSats := by
  rw [ladderFloor]
  omega

theorem ladderFloor_pos {amountSats : ℤ} (h : 1 < amountSats) : 0 < ladderFloor amountSats := by
  rw [ladderFloor]
  omega

def ladderHalves (amountSats : ℤ) : List ℤ :=
  halvings amountSats (ladderFloor amountSats) 64 (amountSats.tdiv 2) []

theorem half_lt {amountSats : ℤ} (h : 1 < amountSats) : amountSats.tdiv 2 < amountSats := by
  rw [Int.tdiv_eq_ediv_of_nonneg (by omega)]
  omega

theorem collected_nil (original minAmount current : ℤ) :
    Collected original minAmount current [] :=
  ⟨List.Pairwise.nil, by simp, by simp, by simp⟩

theorem ladderHalves_descending {amountSats : ℤ} (h : 1 < amountSats) :
    (ladderHalves amountSats).Pairwise (· > ·) ∧ (ladderHalves amountSats).length ≤ 6 :=
  halvings_collected (collected_nil _ _ _) (ladderFloor_pos h) (half_lt h)

theorem ladderHalves_bounds {amountSats a : ℤ} (ha : a ∈ ladderHalves amountSats) :
    ladderFloor amountSats ≤ a ∧ a < amountSats :=
  halvings_bounds (by simp) 64 (amountSats.tdiv 2) a ha

theorem nativePartialAmounts_of_le {amountSats : ℤ} (h : amountSats ≤ 1) :
    nativePartialAmounts amountSats = [] := by
  have hfloor : ladderFloor amountSats ≤ 0 := by
    rw [ladderFloor]
    omega
  by_cases hpos : amountSats ≤ 0
  · simp [nativePartialAmounts, hpos]
  · rw [ladderFloor] at hfloor
    simp [nativePartialAmounts, hpos, hfloor]

/-- The ladder is the halves and then the floor, unless a half already is the floor; the final
truncation never drops a rung. -/
theorem nativePartialAmounts_eq {amountSats : ℤ} (h : 1 < amountSats) :
    nativePartialAmounts amountSats =
      if ladderFloor amountSats ∈ ladderHalves amountSats then ladderHalves amountSats
      else ladderHalves amountSats ++ [ladderFloor amountSats] := by
  have hpos : ¬amountSats ≤ 0 := by omega
  have hfloor : ¬ladderFloor amountSats ≤ 0 := by
    have := ladderFloor_pos h
    omega
  have hlt := ladderFloor_lt amountSats
  have hlength := (ladderHalves_descending h).2
  have hcode : nativePartialAmounts amountSats =
      (if ladderFloor amountSats < amountSats ∧ ladderFloor amountSats ∉ ladderHalves amountSats
        then ladderHalves amountSats ++ [ladderFloor amountSats]
        else ladderHalves amountSats).take 7 := by
    simp only [nativePartialAmounts, if_neg hpos]
    exact if_neg hfloor
  rw [hcode]
  by_cases hmem : ladderFloor amountSats ∈ ladderHalves amountSats
  · rw [if_neg (by tauto), if_pos hmem, List.take_of_length_le (by omega)]
  · rw [if_pos ⟨hlt, hmem⟩, if_neg hmem, List.take_of_length_le]
    rw [List.length_append, List.length_singleton]
    omega

/-- A descending list with a lower bound that belongs to it ends on that bound. -/
theorem getLast?_of_descending {l : List ℤ} {m : ℤ} (hdesc : l.Pairwise (· > ·)) (hmem : m ∈ l)
    (hmin : ∀ a ∈ l, m ≤ a) : l.getLast? = some m := by
  induction l with
  | nil => simp at hmem
  | cons a l ih =>
    obtain ⟨habove, hrest⟩ := List.pairwise_cons.mp hdesc
    cases l with
    | nil =>
      obtain rfl := List.mem_singleton.mp hmem
      rfl
    | cons b l =>
      have hma : m ≠ a := by
        rintro rfl
        have hb := habove b (by simp)
        have hm := hmin b (by simp)
        omega
      rw [List.getLast?_cons_cons]
      apply ih hrest
      · exact (List.mem_cons.mp hmem).resolve_left hma
      · intro c hc
        exact hmin c (List.mem_cons_of_mem _ hc)

theorem ladder_length {amountSats : ℤ} (h : 1 < amountSats) :
    (nativePartialAmounts amountSats).length ≤ 7 := by
  have hlength := (ladderHalves_descending h).2
  rw [nativePartialAmounts_eq h]
  split
  · omega
  · rw [List.length_append, List.length_singleton]
    omega

theorem ladder_bounds {amountSats a : ℤ} (h : 1 < amountSats)
    (ha : a ∈ nativePartialAmounts amountSats) : ladderFloor amountSats ≤ a ∧ a < amountSats := by
  rw [nativePartialAmounts_eq h] at ha
  split at ha
  · exact ladderHalves_bounds ha
  · rcases List.mem_append.mp ha with ha | ha
    · exact ladderHalves_bounds ha
    · obtain rfl := List.mem_singleton.mp ha
      exact ⟨le_rfl, ladderFloor_lt amountSats⟩

theorem ladder_descending {amountSats : ℤ} (h : 1 < amountSats) :
    (nativePartialAmounts amountSats).Pairwise (· > ·) := by
  have hhalves := (ladderHalves_descending h).1
  rw [nativePartialAmounts_eq h]
  split
  · exact hhalves
  · rename_i hnew
    rw [List.pairwise_append]
    refine ⟨hhalves, List.pairwise_singleton _ _, ?_⟩
    intro a ha b hb
    obtain rfl := List.mem_singleton.mp hb
    have hne : a ≠ ladderFloor amountSats := by
      rintro rfl
      exact hnew ha
    have hle := (ladderHalves_bounds ha).1
    omega

theorem ladderFloor_mem {amountSats : ℤ} (h : 1 < amountSats) :
    ladderFloor amountSats ∈ nativePartialAmounts amountSats := by
  rw [nativePartialAmounts_eq h]
  split
  · assumption
  · simp

end Ladder

section Budget

/-- A share rounded up covers its part of the budget: the fee rate does not drop. -/
theorem scaledBudgetCeil_rate {budget amount original : ℤ} (hbudget : 0 < budget)
    (hrange : InI64 budget) (hamount : 0 < amount) (hlt : amount < original) :
    scaledBudgetCeil budget amount original ≤ budget ∧
      budget * amount ≤ scaledBudgetCeil budget amount original * original := by
  have hle : scaledBudgetCeil budget amount original ≤ budget := by
    have := rungBudget_le hlt hamount hrange
    rwa [rungBudget, if_pos ⟨by omega, hbudget⟩] at this
  refine ⟨hle, ?_⟩
  have hproduct : 0 ≤ budget * amount := Int.mul_nonneg (by omega) (by omega)
  have hceil : budget * amount ≤ (budget * amount + original - 1).tdiv original * original := by
    rw [Int.tdiv_eq_ediv_of_nonneg (by omega)]
    have hsplit := Int.ediv_mul_add_emod (budget * amount + original - 1) original
    have hrem := Int.emod_lt_of_pos (budget * amount + original - 1) (by omega : 0 < original)
    omega
  have hshare : budget * amount ≤ budget * original :=
    Int.mul_le_mul_of_nonneg_left (by omega) (by omega)
  rw [scaledBudgetCeil]
  by_cases hfits : InI64 ((budget * amount + original - 1).tdiv original)
  · rw [if_pos hfits]
    apply hceil.trans
    apply Int.mul_le_mul_of_nonneg_right (le_max_left _ _) (by omega)
  · rw [if_neg hfits]
    apply hshare.trans
    apply Int.mul_le_mul_of_nonneg_right _ (by omega)
    rw [InI64] at hrange
    omega

end Budget

/-- The ladder is a list of at most seven strictly descending rungs from below the amount to the
floor, empty for an amount of at most one, and no rung's share of a positive budget exceeds it or
lowers its rate. The loop has ended by itself after six rounds. -/
theorem partial_ladder_shape (amountSats : ℤ) :
    (nativePartialAmounts amountSats).length ≤ 7 ∧
      (nativePartialAmounts amountSats).Pairwise (· > ·) ∧
      (∀ a ∈ nativePartialAmounts amountSats,
        ladderFloor amountSats ≤ a ∧ a ≤ amountSats - 1) ∧
      (nativePartialAmounts amountSats = [] ↔ amountSats ≤ 1) ∧
      (1 < amountSats →
        (nativePartialAmounts amountSats).getLast? = some (ladderFloor amountSats)) ∧
      (1 < amountSats → ∀ fuel, 6 ≤ fuel →
        halvings amountSats (ladderFloor amountSats) fuel (amountSats.tdiv 2) [] =
          ladderHalves amountSats) ∧
      ∀ budget, 0 < budget → InI64 budget → ∀ a ∈ nativePartialAmounts amountSats,
        scaledBudgetCeil budget a amountSats ≤ budget ∧
          budget * a ≤ scaledBudgetCeil budget a amountSats * amountSats := by
  by_cases h : 1 < amountSats
  · have hmem := ladderFloor_mem h
    have hfuels : ∀ fuel, 6 ≤ fuel →
        halvings amountSats (ladderFloor amountSats) fuel (amountSats.tdiv 2) [] =
          ladderHalves amountSats := by
      have hstable : ∀ extra,
          halvings amountSats (ladderFloor amountSats) (6 + extra) (amountSats.tdiv 2) [] =
            halvings amountSats (ladderFloor amountSats) 6 (amountSats.tdiv 2) [] :=
        halvings_stable (collected_nil _ _ _) (ladderFloor_pos h) (half_lt h) (by simp)
      intro fuel hfuel
      obtain ⟨extra, rfl⟩ := Nat.exists_eq_add_of_le hfuel
      rw [hstable extra, ladderHalves]
      exact (hstable 58).symm
    refine ⟨ladder_length h, ladder_descending h, ?_, ?_, ?_, fun _ => hfuels, ?_⟩
    · intro a ha
      have := ladder_bounds h ha
      omega
    · constructor
      · intro hnil
        simp [hnil] at hmem
      · intro hle
        omega
    · intro _
      exact getLast?_of_descending (ladder_descending h) hmem fun a ha => (ladder_bounds h ha).1
    · intro budget hbudget hrange a ha
      have hfloor := ladderFloor_pos h
      have hbounds := ladder_bounds h ha
      exact scaledBudgetCeil_rate hbudget hrange (by omega) (by omega)
  · rw [nativePartialAmounts_of_le (by omega)]
    simp
    omega

/-- The rungs of 12345 sats, and the share of a 10 sat budget on the last one. -/
theorem partial_ladder_shape_12345 :
    nativePartialAmounts 12345 = [6172, 5000] ∧ scaledBudgetCeil 10 5000 12345 = 5 ∧
      (nativePartialAmounts 12345).getLast? = some (ladderFloor 12345) ∧
      10 * 5000 ≤ scaledBudgetCeil 10 5000 12345 * 12345 :=
  ⟨by decide, by decide, (partial_ladder_shape 12345).2.2.2.2.1 (by decide),
    ((partial_ladder_shape 12345).2.2.2.2.2.2 10 (by decide) (by decide) 5000 (by decide)).2⟩

end PartialLadder
