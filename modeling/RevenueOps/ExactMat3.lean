import RevenueOps.Mat3
import RevenueOps.RealArithmetic
import RevenueOps.RegularizedMatrix
import RevenueOps.WeightedMean

/-! The matrix kernel over exact numbers: its inverse is one, its factor is one, and neither
tolerance rejects a matrix that keeps a ridge above singular. -/
namespace Mat3

open Arithmetic Matrix RegularizedMatrix

noncomputable section

section Inverse

variable {m s : M3 ℝ}

theorem det3_eq (m : M3 ℝ) : det3 m = (of m).det := by
  rw [det3, det_fin_three]
  simp only [of_apply]
  ring

theorem matvec3_eq (m : M3 ℝ) (v : V3 ℝ) : matvec3 m v = of m *ᵥ v := by
  funext i
  rw [matvec3, mulVec, vec3_dotProduct]
  rfl

theorem maxElem_le {b : ℝ} (h : ∀ i j, |m i j| ≤ b) : maxElem m ≤ b := by
  rw [maxElem]
  simp only [abs_exact, List.cons_append, List.nil_append, List.foldl_cons, List.foldl_nil,
    max_exact, max_le_iff]
  simp only [h, and_self]

theorem maxElem_nonneg (m : M3 ℝ) : 0 ≤ maxElem m := by
  rw [maxElem]
  simp only [abs_exact, List.cons_append, List.nil_append, List.foldl_cons, List.foldl_nil,
    max_exact]
  apply le_max_of_le_right
  exact abs_nonneg _

theorem invert3_mul (h : invert3 m = some s) : of m * of s = 1 := by
  rw [invert3] at h
  split at h
  · cases h
  · rename_i htol
    have hdet : det3 m ≠ 0 := by
      intro hzero
      apply htol
      rw [hzero]
      norm_num
    have hone : det3 m * (1.0 / det3 m) = 1 := by
      field_simp
      norm_num
    cases h
    generalize 1.0 / det3 m = q at hone ⊢
    rw [det3] at hone
    rw [one_fin_three]
    ext i j
    rw [mul_apply, Fin.sum_univ_three]
    fin_cases i <;> fin_cases j <;> simp only [of_apply, cons_val, Fin.zero_eta, Fin.mk_one,
      Fin.reduceFinMk]
    · linear_combination hone
    · ring
    · ring
    · ring
    · linear_combination hone
    · ring
    · ring
    · ring
    · linear_combination hone

end Inverse

section Factor

variable {s : M3 ℝ}

/-- The entries of the factor, in the order they are found. -/
def factor00 (s : M3 ℝ) : ℝ := √(s 0 0)
def factor10 (s : M3 ℝ) : ℝ := s 1 0 / factor00 s
def factor11 (s : M3 ℝ) : ℝ := √(s 1 1 - factor10 s * factor10 s)
def factor20 (s : M3 ℝ) : ℝ := s 2 0 / factor00 s
def factor21 (s : M3 ℝ) : ℝ := (s 2 1 - factor20 s * factor10 s) / factor11 s
def factor22 (s : M3 ℝ) : ℝ := √(s 2 2 - (factor20 s * factor20 s + factor21 s * factor21 s))

def factor (s : M3 ℝ) : M3 ℝ :=
  ![![factor00 s, 0, 0], ![factor10 s, factor11 s, 0], ![factor20 s, factor21 s, factor22 s]]

theorem below_zero : (List.finRange 3).filter (· < (0 : Fin 3)) = [] := by decide
theorem below_one : (List.finRange 3).filter (· < (1 : Fin 3)) = [0] := by decide
theorem below_two : (List.finRange 3).filter (· < (2 : Fin 3)) = [0, 1] := by decide

theorem zero_literal : (0.0 : ℝ) = 0 := by norm_num
theorem one_literal : (1.0 : ℝ) = 1 := by norm_num

/-- The products of two rows left of column `j`, in the order of the code. -/
def rowDot (l : M3 ℝ) (i j : Fin 3) : ℝ :=
  ((List.finRange 3).filter (· < j)).foldl (fun s k => s + l i k * l j k) 0.0

theorem rowDot_zero (l : M3 ℝ) (i : Fin 3) : rowDot l i 0 = 0 := by
  rw [rowDot, below_zero, List.foldl_nil, zero_literal]

theorem rowDot_one (l : M3 ℝ) (i : Fin 3) : rowDot l i 1 = l i 0 * l 1 0 := by
  rw [rowDot, below_one, List.foldl_cons, List.foldl_nil, zero_literal, zero_add]

theorem rowDot_two (l : M3 ℝ) (i : Fin 3) :
    rowDot l i 2 = l i 0 * l 2 0 + l i 1 * l 2 1 := by
  rw [rowDot, below_two, List.foldl_cons, List.foldl_cons, List.foldl_nil, zero_literal, zero_add]

theorem store_eq {l l' : M3 ℝ} {i j : Fin 3} {x : ℝ}
    (h : ∀ a b, l' a b = if a = i ∧ b = j then x else l a b) :
    Function.update l i (Function.update (l i) j x) = l' := by
  funext a b
  rw [h]
  by_cases ha : a = i
  · subst ha
    by_cases hb : b = j
    · subst hb
      simp
    · simp [hb]
  · simp [ha]

theorem choleskyEntry_diagonal {m l l' : M3 ℝ} {i : Fin 3} (h : ¬m i i - rowDot l i i < 1e-12)
    (hstore : ∀ a b, l' a b = if a = i ∧ b = i then √(m i i - rowDot l i i) else l a b) :
    choleskyEntry m l (i, i) = some l' := by
  rw [← store_eq hstore]
  rw [rowDot] at h ⊢
  simp only [choleskyEntry, if_true, if_neg h, sqrt_real]

theorem choleskyEntry_below {m l l' : M3 ℝ} {i j : Fin 3} (hne : i ≠ j) (h : ¬l j j < 1e-12)
    (hstore : ∀ a b, l' a b =
      if a = i ∧ b = j then (m i j - rowDot l i j) / l j j else l a b) :
    choleskyEntry m l (i, j) = some l' := by
  rw [← store_eq hstore, rowDot]
  simp only [choleskyEntry, if_neg hne, if_neg h]

/-- The loop finds the factor as long as no pivot is under the tolerance. -/
theorem cholesky3_eq (h0 : ¬s 0 0 < 1e-12) (h1 : ¬s 1 1 - factor10 s * factor10 s < 1e-12)
    (h2 : ¬s 2 2 - (factor20 s * factor20 s + factor21 s * factor21 s) < 1e-12)
    (hl0 : ¬factor00 s < 1e-12) (hl1 : ¬factor11 s < 1e-12) :
    cholesky3 s = some (factor s) := by
  have f00 : factor00 s = √(s 0 0) := rfl
  have f10 : factor10 s = s 1 0 / factor00 s := rfl
  have f11 : factor11 s = √(s 1 1 - factor10 s * factor10 s) := rfl
  have f20 : factor20 s = s 2 0 / factor00 s := rfl
  have f21 : factor21 s = (s 2 1 - factor20 s * factor10 s) / factor11 s := rfl
  have f22 : factor22 s = √(s 2 2 - (factor20 s * factor20 s + factor21 s * factor21 s)) := rfl
  rw [factor]
  generalize factor22 s = l22 at f22 ⊢
  generalize factor21 s = l21 at f21 f22 h2 ⊢
  generalize factor20 s = l20 at f20 f21 f22 h2 ⊢
  generalize factor11 s = l11 at f11 f21 hl1 ⊢
  generalize factor10 s = l10 at f10 f11 f21 h1 ⊢
  generalize factor00 s = l00 at f00 f10 f20 hl0 ⊢
  have step00 : choleskyEntry s (fun _ _ => 0.0) (0, 0) =
      some ![![l00, 0, 0], ![0, 0, 0], ![0, 0, 0]] := by
    apply choleskyEntry_diagonal
    · rwa [rowDot_zero, sub_zero]
    · intro a b
      rw [rowDot_zero, sub_zero, ← f00]
      fin_cases a <;> fin_cases b <;> norm_num
  have step10 : choleskyEntry s ![![l00, 0, 0], ![0, 0, 0], ![0, 0, 0]] (1, 0) =
      some ![![l00, 0, 0], ![l10, 0, 0], ![0, 0, 0]] := by
    apply choleskyEntry_below (by decide)
    · exact hl0
    · intro a b
      rw [rowDot_zero, sub_zero]
      fin_cases a <;> fin_cases b <;> simp [f10]
  have step11 : choleskyEntry s ![![l00, 0, 0], ![l10, 0, 0], ![0, 0, 0]] (1, 1) =
      some ![![l00, 0, 0], ![l10, l11, 0], ![0, 0, 0]] := by
    apply choleskyEntry_diagonal
    · rw [rowDot_one]
      exact h1
    · intro a b
      rw [rowDot_one]
      fin_cases a <;> fin_cases b <;> simp [f11]
  have step20 : choleskyEntry s ![![l00, 0, 0], ![l10, l11, 0], ![0, 0, 0]] (2, 0) =
      some ![![l00, 0, 0], ![l10, l11, 0], ![l20, 0, 0]] := by
    apply choleskyEntry_below (by decide)
    · exact hl0
    · intro a b
      rw [rowDot_zero, sub_zero]
      fin_cases a <;> fin_cases b <;> simp [f20]
  have step21 : choleskyEntry s ![![l00, 0, 0], ![l10, l11, 0], ![l20, 0, 0]] (2, 1) =
      some ![![l00, 0, 0], ![l10, l11, 0], ![l20, l21, 0]] := by
    apply choleskyEntry_below (by decide)
    · exact hl1
    · intro a b
      rw [rowDot_one]
      fin_cases a <;> fin_cases b <;> simp [f21]
  have step22 : choleskyEntry s ![![l00, 0, 0], ![l10, l11, 0], ![l20, l21, 0]] (2, 2) =
      some ![![l00, 0, 0], ![l10, l11, 0], ![l20, l21, l22]] := by
    apply choleskyEntry_diagonal
    · rw [rowDot_two]
      exact h2
    · intro a b
      rw [rowDot_two]
      fin_cases a <;> fin_cases b <;> simp [f22]
  rw [cholesky3]
  simp only [List.foldlM_cons, List.foldlM_nil, Option.bind_eq_bind, step00, step10, step11,
    step20, step21, step22, Option.bind_some, Option.pure_def]

/-- The factor of a symmetric matrix with positive pivots multiplies back to it. -/
theorem factor_mul_transpose (hsymm : ∀ i j, s i j = s j i) (h0 : 0 < s 0 0)
    (h1 : 0 < s 1 1 - factor10 s * factor10 s)
    (h2 : 0 < s 2 2 - (factor20 s * factor20 s + factor21 s * factor21 s)) :
    of (factor s) * (of (factor s))ᵀ = of s := by
  have hp0 : factor00 s ≠ 0 := (Real.sqrt_pos.mpr h0).ne'
  have hp1 : factor11 s ≠ 0 := (Real.sqrt_pos.mpr h1).ne'
  have f00 : factor00 s * factor00 s = s 0 0 := Real.mul_self_sqrt h0.le
  have f10 : factor10 s * factor00 s = s 1 0 := div_mul_cancel₀ _ hp0
  have f11 : factor11 s * factor11 s = s 1 1 - factor10 s * factor10 s :=
    Real.mul_self_sqrt h1.le
  have f20 : factor20 s * factor00 s = s 2 0 := div_mul_cancel₀ _ hp0
  have f21 : factor21 s * factor11 s = s 2 1 - factor20 s * factor10 s := div_mul_cancel₀ _ hp1
  have f22 : factor22 s * factor22 s =
      s 2 2 - (factor20 s * factor20 s + factor21 s * factor21 s) := Real.mul_self_sqrt h2.le
  have s01 := hsymm 0 1
  have s02 := hsymm 0 2
  have s12 := hsymm 1 2
  ext i j
  rw [mul_apply, Fin.sum_univ_three]
  fin_cases i <;> fin_cases j <;>
    simp only [transpose_apply, of_apply, factor, cons_val, Fin.zero_eta, Fin.mk_one,
      Fin.reduceFinMk] <;>
    linarith

end Factor

section Tolerances

variable {c t : ℝ} {m s : M3 ℝ}

/-- A matrix over a ridge of 1/200 is never taken for a singular one, whatever its trace up to
61. -/
theorem invert3_of_regularized (h : Regularized c t (of m)) (hlo : 1 / 200 ≤ c) (ht : t ≤ 61) :
    ∃ s, invert3 m = some s := by
  have hc : 0 < c := by linarith
  have hdet := h.det_ge hc.le
  have hexcess := h.excess.trace_nonneg
  have htrace := h.trace.trans ht
  have helem : maxElem m ≤ (of m).trace :=
    maxElem_le (abs_apply_le_trace (h.posDef hc).posSemidef)
  rw [trace_sub, trace_smul, trace_one, Fintype.card_fin, smul_eq_mul] at hexcess
  push_cast at hexcess
  generalize (of m).trace = T at hdet hexcess htrace helem
  have hsq : 1 / 40000 ≤ c ^ 2 := by nlinarith
  have hthird : T / 3 ≤ T - 2 * c := by linarith
  have hpos : 0 < T := by linarith
  have hlow : T / 120000 ≤ (of m).det := by
    calc T / 120000 = 1 / 40000 * (T / 3) := by ring
      _ ≤ c ^ 2 * (T - 2 * c) := mul_le_mul hsq hthird (by positivity) (by positivity)
      _ ≤ (of m).det := hdet
  have hcube : maxElem m * maxElem m * maxElem m ≤ 3721 * T := by
    have hnonneg := maxElem_nonneg m
    calc maxElem m * maxElem m * maxElem m ≤ 61 * 61 * T := by
          apply mul_le_mul _ helem hnonneg (by norm_num)
          exact mul_le_mul (helem.trans htrace) (helem.trans htrace) hnonneg (by norm_num)
      _ = 3721 * T := by ring
  have htol : ¬|det3 m| < 1e-10 * max (maxElem m * maxElem m * maxElem m) 1.0 := by
    have hmax : max (maxElem m * maxElem m * maxElem m) 1.0 ≤ 3721 * T + 1 := by
      apply max_le
      · linarith
      · norm_num
        linarith
    rw [det3_eq, not_lt,
      abs_of_nonneg (by linarith [hlow, div_pos hpos (by norm_num : (0 : ℝ) < 120000)])]
    have hscaled := mul_le_mul_of_nonneg_left hmax (by norm_num : (0 : ℝ) ≤ 1e-10)
    have htiny : 1e-10 * (3721 * T + 1) ≤ T / 120000 := by
      norm_num
      linarith
    linarith
  rw [invert3]
  exact ⟨_, if_neg htol⟩

/-- The entries of the inverse, and the Schur complements its factor takes the roots of. -/
structure InversePivots (m s : M3 ℝ) : Prop where
  symm : ∀ i j, s i j = s j i
  first : s 0 0 = principalMinor (of m) 1 2 / (of m).det
  second : s 1 1 - s 1 0 * s 1 0 / s 0 0 = m 2 2 / principalMinor (of m) 1 2
  below : s 2 1 - s 2 0 * s 1 0 / s 0 0 = -m 1 2 / principalMinor (of m) 1 2
  third : s 2 2 - s 2 0 * s 2 0 / s 0 0 = m 1 1 / principalMinor (of m) 1 2

theorem invert3_pivots (hpos : (of m).PosDef) (h : invert3 m = some s) : InversePivots m s := by
  have hdet := hpos.det_pos.ne'
  have hminor := (principalMinor_pos hpos).ne'
  have s10 : m 1 0 = m 0 1 := symm hpos.posSemidef 1 0
  have s20 : m 2 0 = m 0 2 := symm hpos.posSemidef 2 0
  have s21 : m 2 1 = m 1 2 := symm hpos.posSemidef 2 1
  have hd : (of m).det = m 0 0 * (m 1 1 * m 2 2 - m 1 2 ^ 2) -
      m 0 1 * (m 0 1 * m 2 2 - m 1 2 * m 0 2) + m 0 2 * (m 0 1 * m 1 2 - m 1 1 * m 0 2) := by
    rw [← det3_eq, det3, s10, s20, s21]
    ring
  have hk : principalMinor (of m) 1 2 = m 1 1 * m 2 2 - m 1 2 ^ 2 := rfl
  rw [invert3] at h
  split at h
  · cases h
  cases h
  rw [det3_eq, one_literal]
  constructor
  · intro i j
    fin_cases i <;> fin_cases j <;>
      simp only [Fin.zero_eta, Fin.mk_one, Fin.reduceFinMk, cons_val, s10, s20, s21] <;> ring
  all_goals simp only [cons_val, s10, s20, s21]
  all_goals generalize (of m).det = d at hd hdet ⊢
  all_goals generalize principalMinor (of m) 1 2 = k at hk hminor ⊢
  all_goals have hfirst : m 1 1 * m 2 2 - m 1 2 * m 1 2 = k := by rw [hk]; ring
  all_goals rw [hfirst]
  · ring
  · field_simp
    rw [hk, hd]
    ring
  · field_simp
    rw [hk, hd]
    ring
  · field_simp
    rw [hk, hd]
    ring

theorem one_div_le_div {a b T : ℝ} (ha : 0 < b) (hT : 0 < T) (h : b ≤ T * a) : 1 / T ≤ a / b := by
  rw [div_le_div_iff₀ hT ha]
  linarith

/-- A pivot of the inverse is at least the reciprocal of the trace, far over the tolerance. -/
theorem cholesky3_of_regularized (h : Regularized c t (of m)) (hc : 0 < c) (ht : t ≤ 61)
    (hs : invert3 m = some s) :
    ∃ l, cholesky3 s = some l ∧ of l * (of l)ᵀ = of s := by
  have hpos := h.posDef hc
  have hdet := hpos.det_pos
  have hminor := principalMinor_pos hpos
  have hlast : 0 < m 2 2 := hpos.diag_pos
  have htrace := h.trace.trans ht
  have hT : 0 < (of m).trace := lt_of_lt_of_le (abs_pos.mpr hlast.ne')
    (abs_apply_le_trace hpos.posSemidef 2 2)
  have hfloor : 1 / 61 ≤ 1 / (of m).trace := one_div_le_one_div_of_le hT htrace
  have hpivots := invert3_pivots hpos hs
  have hp0 : 1 / 61 ≤ s 0 0 := by
    rw [hpivots.first]
    exact hfloor.trans (one_div_le_div hdet hT (det_le_principalMinor hpos))
  have hroot : 0 < √(s 0 0) := Real.sqrt_pos.mpr (by linarith)
  have hsquare : √(s 0 0) * √(s 0 0) = s 0 0 := Real.mul_self_sqrt (by linarith)
  have hrow (a b : ℝ) : a / √(s 0 0) * (b / √(s 0 0)) = a * b / s 0 0 := by
    rw [div_mul_div_comm, hsquare]
  have hpivot1 : s 1 1 - factor10 s * factor10 s = m 2 2 / principalMinor (of m) 1 2 := by
    rw [← hpivots.second]
    exact congrArg (s 1 1 - ·) (hrow _ _)
  have hp1 : 1 / 61 ≤ s 1 1 - factor10 s * factor10 s := by
    rw [hpivot1]
    exact hfloor.trans (one_div_le_div hminor hT (principalMinor_le hpos))
  have hbelow : factor21 s = -m 1 2 / principalMinor (of m) 1 2 / factor11 s := by
    rw [← hpivots.below]
    exact congrArg (fun x => (s 2 1 - x) / factor11 s) (hrow _ _)
  have hbelow_sq : factor21 s * factor21 s = m 1 2 ^ 2 / (principalMinor (of m) 1 2 * m 2 2) := by
    rw [hbelow, div_mul_div_comm, factor11, Real.mul_self_sqrt (by linarith), hpivot1]
    field_simp
  have hpivot2 : s 2 2 - (factor20 s * factor20 s + factor21 s * factor21 s) =
      1 / m 2 2 := by
    have hthird : s 2 2 - factor20 s * factor20 s = m 1 1 / principalMinor (of m) 1 2 := by
      rw [← hpivots.third]
      exact congrArg (s 2 2 - ·) (hrow _ _)
    have hk : principalMinor (of m) 1 2 = m 1 1 * m 2 2 - m 1 2 ^ 2 := rfl
    rw [← sub_sub, hthird, hbelow_sq]
    field_simp
    rw [hk]
  have hp2 : 1 / 61 ≤ s 2 2 - (factor20 s * factor20 s + factor21 s * factor21 s) := by
    rw [hpivot2]
    apply one_div_le_one_div_of_le hlast
    exact (le_abs_self _).trans ((abs_apply_le_trace hpos.posSemidef 2 2).trans htrace)
  have hpivot (x : ℝ) (hx : 1 / 61 ≤ x) : ¬x < 1e-12 := by
    norm_num
    linarith
  have hdivisor (x : ℝ) (hx : 1 / 61 ≤ x) : ¬√x < 1e-12 := by
    rw [not_lt]
    apply Real.le_sqrt_of_sq_le
    norm_num
    linarith
  refine ⟨factor s, ?_, ?_⟩
  · apply cholesky3_eq (hpivot _ hp0) (hpivot _ hp1) (hpivot _ hp2)
    · exact hdivisor _ hp0
    · exact hdivisor _ hp1
  · apply factor_mul_transpose hpivots.symm
    · linarith
    · linarith
    · linarith

end Tolerances

end

end Mat3
