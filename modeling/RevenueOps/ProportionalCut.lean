import Mathlib.Algebra.BigOperators.Ring.Finset
import Mathlib.Algebra.BigOperators.Ring.List
import Mathlib.Algebra.Order.BigOperators.Group.List
import Mathlib.Algebra.Order.Field.Basic
import Mathlib.Data.Int.Cast.Lemmas
import Mathlib.Algebra.Order.Ring.Cast
import Mathlib.Tactic.FieldSimp
import Mathlib.Tactic.Linarith
import Mathlib.Tactic.Ring

/-! Demands that are cut in proportion when their sum exceeds a cap, each share rounded down to
whole units. -/
namespace ProportionalCut

section Share

variable {K : Type} [Field K]

def share (round : K → ℤ) (cap total demand : ℤ) : ℤ :=
  if cap < total then round (demand * (cap / total)) else demand

variable {round : K → ℤ} {cap total demand : ℤ}

theorem share_of_le (h : total ≤ cap) : share round cap total demand = demand :=
  if_neg (not_lt.mpr h)

theorem share_of_lt (h : cap < total) :
    share round cap total demand = round (demand * (cap / total)) := if_pos h

end Share

/-- A rounding to whole units that is monotone and never rounds a non-negative number up. -/
structure RoundsDown {K : Type} [Field K] [LinearOrder K] (round : K → ℤ) : Prop where
  mono : ∀ {x y}, x ≤ y → round x ≤ round y
  nonneg : ∀ {x}, 0 ≤ x → 0 ≤ round x
  le_self : ∀ {x}, 0 ≤ x → (round x : K) ≤ x

section Bounds

variable {K : Type} [Field K] [LinearOrder K] [IsStrictOrderedRing K]

variable {round : K → ℤ} {cap cap' total demand demand' rest : ℤ}

theorem ratio_nonneg (hcap : 0 ≤ cap) (h : cap < total) : (0 : K) ≤ cap / total :=
  div_nonneg (Int.cast_nonneg hcap) (Int.cast_nonneg (hcap.trans h.le))

theorem share_nonneg (hr : RoundsDown round) (hcap : 0 ≤ cap) (hd : 0 ≤ demand) :
    0 ≤ share round cap total demand := by
  by_cases h : cap < total
  · rw [share_of_lt h]
    exact hr.nonneg (mul_nonneg (Int.cast_nonneg hd) (ratio_nonneg hcap h))
  · rw [share_of_le (not_lt.mp h)]
    exact hd

theorem share_le_proportion (hr : RoundsDown round) (hcap : 0 ≤ cap) (hd : 0 ≤ demand)
    (h : cap < total) : (share round cap total demand : K) ≤ demand * (cap / total) := by
  rw [share_of_lt h]
  exact hr.le_self (mul_nonneg (Int.cast_nonneg hd) (ratio_nonneg hcap h))

theorem share_le (hr : RoundsDown round) (hcap : 0 ≤ cap) (hd : 0 ≤ demand) :
    share round cap total demand ≤ demand := by
  by_cases h : cap < total
  · have htotal : (0 : K) < total := Int.cast_pos.mpr (hcap.trans_lt h)
    have hratio : (cap : K) / total ≤ 1 := (div_le_one htotal).mpr (Int.cast_le.mpr h.le)
    have hle : (share round cap total demand : K) ≤ demand :=
      (share_le_proportion hr hcap hd h).trans (mul_le_of_le_one_right (Int.cast_nonneg hd) hratio)
    exact Int.cast_le.mp hle
  · exact (share_of_le (not_lt.mp h)).le

theorem share_zero (hr : RoundsDown round) (hcap : 0 ≤ cap) : share round cap total 0 = 0 :=
  le_antisymm (share_le hr hcap le_rfl) (share_nonneg hr hcap le_rfl)

theorem sum_share_le (hr : RoundsDown round) (hcap : 0 ≤ cap) (demands : List ℤ)
    (hd : ∀ d ∈ demands, 0 ≤ d) :
    (demands.map (share round cap demands.sum)).sum ≤ cap := by
  by_cases h : cap < demands.sum
  · have htotal : ((demands.sum : ℤ) : K) ≠ 0 := Int.cast_ne_zero.mpr (hcap.trans_lt h).ne'
    have hbound : (((demands.map (share round cap demands.sum)).sum : ℤ) : K) ≤ cap :=
      calc (((demands.map (share round cap demands.sum)).sum : ℤ) : K)
          = (demands.map fun d : ℤ => (share round cap demands.sum d : K)).sum := by
            rw [Int.cast_list_sum, List.map_map]
            rfl
        _ ≤ (demands.map fun d : ℤ => (d : K) * (cap / demands.sum)).sum :=
            List.sum_le_sum fun d hmem => share_le_proportion hr hcap (hd d hmem) h
        _ = (demands.sum : ℤ) * (cap / demands.sum) := by
            rw [List.sum_map_mul_right, Int.cast_list_sum]
        _ = cap := mul_div_cancel₀ _ htotal
    exact Int.cast_le.mp hbound
  · rw [List.map_congr_left fun d _ => share_of_le (not_lt.mp h), List.map_id']
    exact not_lt.mp h

/-- A larger demand of one party, under a cap that is not smaller, gets no smaller a share: the
factor falls with the sum, but slower than the demand rises. -/
theorem share_mono (hr : RoundsDown round) (hcap : 0 ≤ cap) (hcaps : cap ≤ cap')
    (hrest : 0 ≤ rest) (hd : 0 ≤ demand) (hwhole : round demand = demand)
    (hle : demand ≤ demand') :
    share round cap (demand + rest) demand ≤ share round cap' (demand' + rest) demand' := by
  have hdK : (0 : K) ≤ demand := Int.cast_nonneg hd
  have hrestK : (0 : K) ≤ rest := Int.cast_nonneg hrest
  have hleK : (demand : K) ≤ demand' := Int.cast_le.mpr hle
  have hcross : (demand : K) * (demand' + rest) ≤ demand' * (demand + rest) := by
    have hpart := mul_le_mul_of_nonneg_right hleK hrestK
    linarith
  by_cases h' : cap' < demand' + rest
  · have htotal' : (0 : K) < demand' + rest := by
      rw [← Int.cast_add]
      exact Int.cast_pos.mpr ((hcap.trans hcaps).trans_lt h')
    by_cases h : cap < demand + rest
    · have htotal : (0 : K) < demand + rest := by
        rw [← Int.cast_add]
        exact Int.cast_pos.mpr (hcap.trans_lt h)
      rw [share_of_lt h, share_of_lt h', Int.cast_add, Int.cast_add]
      apply hr.mono
      rw [← mul_div_assoc, ← mul_div_assoc, div_le_div_iff₀ htotal htotal']
      calc (demand : K) * cap * (demand' + rest) = demand * (demand' + rest) * cap := by ring
        _ ≤ demand' * (demand + rest) * cap' :=
          mul_le_mul hcross (Int.cast_le.mpr hcaps) (Int.cast_nonneg hcap)
            (mul_nonneg (hdK.trans hleK) htotal.le)
        _ = demand' * cap' * (demand + rest) := by ring
    · have hfits : demand + rest ≤ cap' := (not_lt.mp h).trans hcaps
      have hfitsK : (demand : K) + rest ≤ cap' := by
        rw [← Int.cast_add]
        exact Int.cast_le.mpr hfits
      rw [share_of_le (not_lt.mp h), share_of_lt h', Int.cast_add]
      have hpart : (demand : K) ≤ demand' * (cap' / (demand' + rest)) := by
        rw [← mul_div_assoc, le_div_iff₀ htotal']
        exact hcross.trans (mul_le_mul_of_nonneg_left hfitsK (hdK.trans hleK))
      exact hwhole.symm.le.trans (hr.mono hpart)
  · rw [share_of_le (not_lt.mp h')]
    exact (share_le hr hcap hd).trans hle

end Bounds

end ProportionalCut
