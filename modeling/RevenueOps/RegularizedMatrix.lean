import Mathlib.Algebra.Order.Star.Real
import Mathlib.Analysis.Matrix.PosDef
import Mathlib.LinearAlgebra.Matrix.Determinant.Basic
import Mathlib.Tactic.FieldSimp
import Mathlib.Tactic.FinCases
import Mathlib.Tactic.Linarith
import Mathlib.Tactic.LinearCombination
import Mathlib.Tactic.Positivity

/-! Real matrices of three rows that stay a ridge above singular: their determinant against their
trace, the size of their entries, and the Schur complements of their inverse. -/
namespace RegularizedMatrix

open Matrix

abbrev Mat := Matrix (Fin 3) (Fin 3) ℝ

section Minors

variable {n : Type*} {G : Matrix n n ℝ}

theorem symm (h : G.PosSemidef) (i j : n) : G i j = G j i := h.isHermitian.apply j i

theorem minor_nonneg (h : G.PosSemidef) (i j : n) : 0 ≤ G i i * G j j - G i j ^ 2 := by
  have hminor := (h.submatrix ![i, j]).det_nonneg
  rw [det_fin_two] at hminor
  simp only [submatrix_apply, cons_val_zero, cons_val_one] at hminor
  rw [symm h j i] at hminor
  linarith [hminor, sq (G i j)]

theorem posSemidef_rankOne [Finite n] {w : ℝ} (hw : 0 ≤ w) (v : n → ℝ) :
    (w • vecMulVec v v).PosSemidef := by
  have h := posSemidef_vecMulVec_self_star v
  rw [star_trivial] at h
  exact h.smul hw

end Minors

structure Regularized (c t : ℝ) (A : Mat) : Prop where
  excess : (A - c • (1 : Mat)).PosSemidef
  trace : A.trace ≤ t

section Bounds

variable {c t : ℝ} {A : Mat}

theorem Regularized.posDef (h : Regularized c t A) (hc : 0 < c) : A.PosDef := by
  have hridge : (c • (1 : Mat)).PosDef := PosDef.one.smul hc
  have hsum := hridge.add_posSemidef h.excess
  rwa [add_sub_cancel] at hsum

theorem Regularized.smul (h : Regularized c t A) {a : ℝ} (ha : 0 ≤ a) :
    Regularized (a * c) (a * t) (a • A) := by
  constructor
  · have hscaled := h.excess.smul ha
    rwa [smul_sub, smul_smul] at hscaled
  · rw [trace_smul, smul_eq_mul]
    exact mul_le_mul_of_nonneg_left h.trace ha

theorem Regularized.add_rankOne (h : Regularized c t A) {w s : ℝ} {v : Fin 3 → ℝ} (hw : 0 ≤ w)
    (hs : w * (v 0 ^ 2 + v 1 ^ 2 + v 2 ^ 2) ≤ s) :
    Regularized c (t + s) (A + w • vecMulVec v v) := by
  constructor
  · have hsum := h.excess.add (posSemidef_rankOne hw v)
    rwa [sub_add_eq_add_sub] at hsum
  · rw [trace_add, trace_smul, trace_vecMulVec, smul_eq_mul]
    have hdot : v ⬝ᵥ v = v 0 ^ 2 + v 1 ^ 2 + v 2 ^ 2 := by
      rw [vec3_dotProduct]
      ring
    rw [hdot]
    exact add_le_add h.trace hs

theorem regularized_ridge (c : ℝ) : Regularized c (3 * c) (c • (1 : Mat)) := by
  constructor
  · rw [sub_self]
    exact PosSemidef.zero
  · rw [trace_smul, trace_one, Fintype.card_fin, smul_eq_mul]
    push_cast
    linarith

theorem trace_eq (A : Mat) : A.trace = A 0 0 + A 1 1 + A 2 2 := trace_fin_three A

/-- The determinant is the ridge squared times nearly the trace, and what the minors of the excess
add. -/
theorem Regularized.det_ge (h : Regularized c t A) (hc : 0 ≤ c) :
    c ^ 2 * (A.trace - 2 * c) ≤ A.det := by
  set G := A - c • (1 : Mat) with hG
  have hexcess := h.excess
  have hdet := hexcess.det_nonneg
  have h01 := minor_nonneg hexcess 0 1
  have h02 := minor_nonneg hexcess 0 2
  have h12 := minor_nonneg hexcess 1 2
  have s10 := symm hexcess 1 0
  have s20 := symm hexcess 2 0
  have s21 := symm hexcess 2 1
  rw [← hG] at hdet h01 h02 h12 s10 s20 s21
  have hA : A = G + c • (1 : Mat) := by
    rw [hG, sub_add_cancel]
  have hexpand : A.det = c ^ 2 * (A.trace - 2 * c) +
      c * ((G 0 0 * G 1 1 - G 0 1 ^ 2) + (G 0 0 * G 2 2 - G 0 2 ^ 2) +
        (G 1 1 * G 2 2 - G 1 2 ^ 2)) + G.det := by
    rw [hA, det_fin_three, det_fin_three, trace_eq, one_fin_three]
    simp only [Matrix.add_apply, Matrix.smul_apply, of_apply, cons_val, smul_eq_mul, s10, s20, s21]
    ring
  have hminors := mul_nonneg hc (add_nonneg (add_nonneg h01 h02) h12)
  linarith

theorem abs_apply_le_trace (h : A.PosSemidef) (i j : Fin 3) : |A i j| ≤ A.trace := by
  have hdiag (k : Fin 3) : 0 ≤ A k k := h.diag_nonneg
  have htrace (k : Fin 3) : A k k ≤ A.trace := by
    have h0 := hdiag 0
    have h1 := hdiag 1
    have h2 := hdiag 2
    rw [trace_eq]
    fin_cases k <;> simp only [Fin.zero_eta, Fin.mk_one, Fin.reduceFinMk] <;> linarith
  have hminor := minor_nonneg h i j
  have hsq : A i j ^ 2 ≤ A.trace ^ 2 := by
    have hprod := mul_le_mul (htrace i) (htrace j) (hdiag j) ((hdiag i).trans (htrace i))
    linarith [sq A.trace]
  exact abs_le_of_sq_le_sq hsq ((hdiag i).trans (htrace i))

end Bounds

section Pivots

variable {A : Mat}

def principalMinor (A : Mat) (i j : Fin 3) : ℝ := A i i * A j j - A i j ^ 2

theorem principalMinor_pos (h : A.PosDef) : 0 < principalMinor A 1 2 := by
  have hinjective : Function.Injective (![1, 2] : Fin 2 → Fin 3) := by decide
  have hminor := (h.submatrix hinjective).det_pos
  rw [det_fin_two] at hminor
  simp only [submatrix_apply, cons_val_zero, cons_val_one] at hminor
  rw [symm h.posSemidef 2 1] at hminor
  rw [principalMinor]
  linarith [hminor, sq (A 1 2)]

theorem principalMinor_le (h : A.PosDef) : principalMinor A 1 2 ≤ A.trace * A 2 2 := by
  have h0 : 0 < A 0 0 := h.diag_pos
  have h2 : 0 < A 2 2 := h.diag_pos
  rw [principalMinor, trace_eq]
  have hsq := sq_nonneg (A 1 2)
  nlinarith [mul_pos h0 h2, mul_pos h2 h2]

theorem det_le_principalMinor (h : A.PosDef) : A.det ≤ A.trace * principalMinor A 1 2 := by
  have h1 : 0 < A 1 1 := h.diag_pos
  have h2 : 0 < A 2 2 := h.diag_pos
  have hminor := principalMinor_pos h
  have s10 := symm h.posSemidef 1 0
  have s20 := symm h.posSemidef 2 0
  have s21 := symm h.posSemidef 2 1
  have hexpand : A.det = A 0 0 * principalMinor A 1 2 -
      (A 0 1 ^ 2 * A 2 2 - 2 * A 0 1 * A 0 2 * A 1 2 + A 0 2 ^ 2 * A 1 1) := by
    rw [det_fin_three, principalMinor, s10, s20, s21]
    ring
  have hform : 0 ≤ A 0 1 ^ 2 * A 2 2 - 2 * A 0 1 * A 0 2 * A 1 2 + A 0 2 ^ 2 * A 1 1 := by
    -- a form of two variables, completed to squares
    have hsquares : A 2 2 *
        (A 0 1 ^ 2 * A 2 2 - 2 * A 0 1 * A 0 2 * A 1 2 + A 0 2 ^ 2 * A 1 1) =
        (A 2 2 * A 0 1 - A 1 2 * A 0 2) ^ 2 + A 0 2 ^ 2 * principalMinor A 1 2 := by
      rw [principalMinor]
      ring
    have hnonneg : 0 ≤ A 2 2 *
        (A 0 1 ^ 2 * A 2 2 - 2 * A 0 1 * A 0 2 * A 1 2 + A 0 2 ^ 2 * A 1 1) := by
      rw [hsquares]
      positivity
    exact nonneg_of_mul_nonneg_right hnonneg h2
  have hrest := mul_pos (add_pos h1 h2) hminor
  rw [trace_eq]
  linarith [hrest, add_mul (A 0 0) (A 1 1 + A 2 2) (principalMinor A 1 2),
    add_assoc (A 0 0) (A 1 1) (A 2 2)]

end Pivots

end RegularizedMatrix
