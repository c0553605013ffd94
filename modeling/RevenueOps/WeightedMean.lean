import Mathlib.Algebra.BigOperators.Ring.List
import Mathlib.Algebra.Order.BigOperators.Group.List
import Mathlib.Algebra.Order.Field.Basic
import Mathlib.Tactic.Linarith
import Mathlib.Tactic.Ring

/-! Means of lists: a mean with weights that are not negative stays between any bounds of what it
averages, and so does a move of a part of the way towards a bounded target. -/
namespace WeightedMean

variable {K ι : Type} [Field K] [LinearOrder K] [IsStrictOrderedRing K]

structure Stretched (lo hi x : K) : Prop where
  low : lo - (hi - lo) / 2 ≤ x
  high : x ≤ hi + (hi - lo) / 2

variable {lo hi x y : K}

theorem Stretched.of_between (hlo : lo ≤ x) (hhi : x ≤ hi) : Stretched lo hi x := by
  constructor
  · linarith
  · linarith

theorem Stretched.blend {f : K} (hx : Stretched lo hi x) (hy : Stretched lo hi y) (h0 : 0 ≤ f)
    (h1 : f ≤ 1) : Stretched lo hi (x + (y - x) * f) := by
  have hsplit : x + (y - x) * f = x * (1 - f) + y * f := by ring
  have hrest : 0 ≤ 1 - f := by linarith
  rw [hsplit]
  constructor
  · have hlx := mul_le_mul_of_nonneg_right hx.low hrest
    have hly := mul_le_mul_of_nonneg_right hy.low h0
    linarith
  · have hhx := mul_le_mul_of_nonneg_right hx.high hrest
    have hhy := mul_le_mul_of_nonneg_right hy.high h0
    linarith

/-- A point of an inner interval, extrapolated by half its width, is stretched in the outer one. -/
theorem Stretched.extrapolate {a b f : K} (ha : lo ≤ a) (hab : a ≤ b) (hb : b ≤ hi)
    (h0 : -(1 / 2) ≤ f) (h1 : f ≤ 3 / 2) : Stretched lo hi (f * (b - a) + a) := by
  have hwidth : 0 ≤ b - a := sub_nonneg.mpr hab
  have hl := mul_le_mul_of_nonneg_right h0 hwidth
  have hh := mul_le_mul_of_nonneg_right h1 hwidth
  constructor
  · linarith
  · linarith

section Mean

variable {xs : List ι} {value weight : ι → K}

theorem mul_sum_le (hw : ∀ i ∈ xs, 0 ≤ weight i) (hlo : ∀ i ∈ xs, lo ≤ value i) :
    lo * (xs.map weight).sum ≤ (xs.map fun i => value i * weight i).sum := by
  rw [← List.sum_map_mul_left]
  exact List.sum_le_sum fun i hi => mul_le_mul_of_nonneg_right (hlo i hi) (hw i hi)

theorem sum_le_mul (hw : ∀ i ∈ xs, 0 ≤ weight i) (hhi : ∀ i ∈ xs, value i ≤ hi) :
    (xs.map fun i => value i * weight i).sum ≤ hi * (xs.map weight).sum := by
  rw [← List.sum_map_mul_left]
  exact List.sum_le_sum fun i hi => mul_le_mul_of_nonneg_right (hhi i hi) (hw i hi)

theorem mean_between (hw : ∀ i ∈ xs, 0 ≤ weight i) (hpos : 0 < (xs.map weight).sum)
    (hlo : ∀ i ∈ xs, lo ≤ value i) (hhi : ∀ i ∈ xs, value i ≤ hi) :
    lo ≤ (xs.map fun i => value i * weight i).sum / (xs.map weight).sum ∧
      (xs.map fun i => value i * weight i).sum / (xs.map weight).sum ≤ hi :=
  ⟨(le_div_iff₀ hpos).mpr (mul_sum_le hw hlo), (div_le_iff₀ hpos).mpr (sum_le_mul hw hhi)⟩

end Mean

section Extremes

variable {L : Type} [LinearOrder L]

theorem foldl_min_mem (xs : List L) (a : L) : xs.foldl min a ∈ a :: xs := by
  induction xs generalizing a with
  | nil => simp
  | cons x xs ih =>
    have h := ih (min a x)
    rw [List.foldl_cons]
    rcases List.mem_cons.mp h with h | h
    · rw [h]
      rcases min_choice a x with hc | hc <;> rw [hc] <;> simp
    · exact List.mem_cons_of_mem _ (List.mem_cons_of_mem _ h)

theorem foldl_min_le (xs : List L) (a : L) : xs.foldl min a ≤ a ∧ ∀ x ∈ xs, xs.foldl min a ≤ x := by
  induction xs generalizing a with
  | nil => simp
  | cons x xs ih =>
    obtain ⟨hinit, hrest⟩ := ih (min a x)
    rw [List.foldl_cons]
    refine ⟨hinit.trans (min_le_left _ _), fun y hy => ?_⟩
    rcases List.mem_cons.mp hy with rfl | hy
    · exact hinit.trans (min_le_right _ _)
    · exact hrest y hy

theorem foldl_max_mem (xs : List L) (a : L) : xs.foldl max a ∈ a :: xs :=
  foldl_min_mem (L := Lᵒᵈ) xs a

theorem le_foldl_max (xs : List L) (a : L) :
    a ≤ xs.foldl max a ∧ ∀ x ∈ xs, x ≤ xs.foldl max a :=
  foldl_min_le (L := Lᵒᵈ) xs a

end Extremes

end WeightedMean
