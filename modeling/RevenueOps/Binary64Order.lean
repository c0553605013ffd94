import Mathlib.Order.Compare
import RevenueOps.Binary64Casts

/-! The order of doubles is the order of what they denote; a NaN is outside of it. -/
namespace Binary64

open RustFloat RustNumber Float.Model Float.Model.UnpackedFloat

section Magnitudes

theorem real_positive_pos {m : ℕ} (hm : 0 < m) (e : ℤ) : 0 < real .positive m e := by
  rw [real_positive]
  positivity

theorem real_negative_neg {m : ℕ} (hm : 0 < m) (e : ℤ) : real .negative m e < 0 := by
  rw [real_negative]
  linarith [real_positive_pos hm e]

variable {m n : ℕ} {e f : ℤ}

theorem real_lt_of_exponent (hm : Canonical m e) (hn : Canonical n f) (h : e < f) :
    real .positive m e < real .positive n f := by
  have hfull : 2 ^ 52 ≤ n := by
    rcases hn.full with hfull | hlow
    · exact hfull
    · have := hm.low
      omega
  have hmR : (m : ℝ) < 2 ^ 53 := by exact_mod_cast hm.short
  have hnR : (2 : ℝ) ^ 52 ≤ n := by exact_mod_cast hfull
  rw [real_positive, real_positive]
  calc (m : ℝ) * 2 ^ e < 2 ^ 53 * 2 ^ e := mul_lt_mul_of_pos_right hmR (by positivity)
    _ = 2 ^ 52 * 2 ^ (e + 1) := by
      rw [zpow_add_one₀ two_ne_zero]
      ring
    _ ≤ 2 ^ 52 * 2 ^ f := by
      gcongr
      · exact one_le_two
      · omega
    _ ≤ n * 2 ^ f := mul_le_mul_of_nonneg_right hnR (by positivity)

theorem real_lt_of_mantissa (h : m < n) : real .positive m e < real .positive n e := by
  rw [real_positive, real_positive]
  exact mul_lt_mul_of_pos_right (Nat.cast_lt.mpr h) (by positivity)

theorem lexicographic_compares (hm : Canonical m e) (hn : Canonical n f) :
    ((compare e f).then (compare m n)).Compares (real .positive m e) (real .positive n f) := by
  rcases lt_trichotomy e f with h | rfl | h
  · rw [compare_lt_iff_lt.mpr h]
    exact real_lt_of_exponent hm hn h
  · rw [compare_eq_iff_eq.mpr rfl]
    rcases lt_trichotomy m n with h | rfl | h
    · rw [compare_lt_iff_lt.mpr h]
      exact real_lt_of_mantissa h
    · rw [compare_eq_iff_eq.mpr rfl]
      exact rfl
    · rw [compare_gt_iff_gt.mpr h]
      exact real_lt_of_mantissa h
  · rw [compare_gt_iff_gt.mpr h]
    exact real_lt_of_exponent hn hm h

end Magnitudes

section Order

variable {x y : Float} {v w : EReal}

theorem compares_coe {o : Ordering} {a b : ℝ} (h : o.Compares a b) :
    o.Compares (a : EReal) (b : EReal) := by
  cases o
  · exact EReal.coe_lt_coe_iff.mpr h
  · exact congrArg _ h
  · exact EReal.coe_lt_coe_iff.mpr h

theorem compares_swap_neg {o : Ordering} {a b : ℝ} (h : o.Compares a b) :
    o.swap.Compares (-a) (-b) := by
  cases o
  · exact neg_lt_neg h
  · exact congrArg _ h
  · exact neg_lt_neg h

theorem zero_lt_coe {m : ℕ} (hm : 0 < m) (e : ℤ) : (0 : EReal) < (real .positive m e : ℝ) :=
  EReal.coe_pos.mpr (real_positive_pos hm e)

theorem coe_lt_zero {m : ℕ} (hm : 0 < m) (e : ℤ) : ((real .negative m e : ℝ) : EReal) < 0 :=
  EReal.coe_neg'.mpr (real_negative_neg hm e)

theorem negative_lt_positive {m n : ℕ} (hm : 0 < m) (hn : 0 < n) (e f : ℤ) :
    ((real .negative m e : ℝ) : EReal) < (real .positive n f : ℝ) :=
  (coe_lt_zero hm e).trans (zero_lt_coe hn f)

/-- The comparison of two doubles that are numbers, by the sign and the kind of each. -/
theorem exists_compares (hx : Denotes x v) (hy : Denotes y w) :
    ∃ o, x.toModel.unpack.compare y.toModel.unpack = some o ∧ o.Compares v w := by
  rw [Denotes] at hx hy
  cases hux : x.toModel.unpack with
  | notANumber =>
    rw [hux] at hx
    cases hx
  | infinity s =>
    rw [hux] at hx
    cases huy : y.toModel.unpack with
    | notANumber =>
      rw [huy] at hy
      cases hy
    | infinity t =>
      rw [huy] at hy
      cases s <;> cases t <;> cases hx <;> cases hy
      · exact ⟨.eq, rfl, rfl⟩
      · exact ⟨.lt, rfl, bot_lt_top⟩
      · exact ⟨.gt, rfl, bot_lt_top⟩
      · exact ⟨.eq, rfl, rfl⟩
    | zero t =>
      rw [huy] at hy
      cases s <;> cases hx <;> cases hy
      · exact ⟨.lt, rfl, EReal.bot_lt_zero⟩
      · exact ⟨.gt, rfl, EReal.zero_lt_top⟩
    | finite t n f hn =>
      rw [huy] at hy
      cases s <;> cases hx <;> cases hy
      · exact ⟨.lt, rfl, EReal.bot_lt_coe _⟩
      · exact ⟨.gt, rfl, EReal.coe_lt_top _⟩
  | zero s =>
    rw [hux] at hx
    cases hx
    cases huy : y.toModel.unpack with
    | notANumber =>
      rw [huy] at hy
      cases hy
    | infinity t =>
      rw [huy] at hy
      cases t <;> cases hy
      · exact ⟨.gt, rfl, EReal.bot_lt_zero⟩
      · exact ⟨.lt, rfl, EReal.zero_lt_top⟩
    | zero t =>
      rw [huy] at hy
      cases hy
      exact ⟨.eq, rfl, rfl⟩
    | finite t n f hn =>
      rw [huy] at hy
      cases t <;> cases hy
      · exact ⟨.gt, rfl, coe_lt_zero hn f⟩
      · exact ⟨.lt, rfl, zero_lt_coe hn f⟩
  | finite s m e hm =>
    rw [hux] at hx
    cases huy : y.toModel.unpack with
    | notANumber =>
      rw [huy] at hy
      cases hy
    | infinity t =>
      rw [huy] at hy
      cases s <;> cases t <;> cases hx <;> cases hy
      · exact ⟨.gt, rfl, EReal.bot_lt_coe _⟩
      · exact ⟨.lt, rfl, EReal.coe_lt_top _⟩
      · exact ⟨.gt, rfl, EReal.bot_lt_coe _⟩
      · exact ⟨.lt, rfl, EReal.coe_lt_top _⟩
    | zero t =>
      rw [huy] at hy
      cases s <;> cases hx <;> cases hy
      · exact ⟨.lt, rfl, coe_lt_zero hm e⟩
      · exact ⟨.gt, rfl, zero_lt_coe hm e⟩
    | finite t n f hn =>
      rw [huy] at hy
      have hlex := lexicographic_compares (canonical_of_unpack hux) (canonical_of_unpack huy)
      cases s <;> cases t <;> cases hx <;> cases hy
      · refine ⟨_, rfl, ?_⟩
        rw [real_negative, real_negative]
        exact compares_coe (compares_swap_neg hlex)
      · exact ⟨.lt, rfl, negative_lt_positive hm hn e f⟩
      · exact ⟨.gt, rfl, negative_lt_positive hn hm f e⟩
      · exact ⟨_, rfl, compares_coe hlex⟩

theorem lt_iff (hx : Denotes x v) (hy : Denotes y w) : x < y ↔ v < w := by
  obtain ⟨o, ho, hcompares⟩ := exists_compares hx hy
  rw [← hcompares.eq_lt]
  change decide (x.toModel < y.toModel) = true ↔ _
  rw [decide_eq_true_iff]
  change (x.toModel.unpack.compare y.toModel.unpack == some .lt) = true ↔ _
  rw [ho]
  cases o <;> decide

theorem le_iff (hx : Denotes x v) (hy : Denotes y w) : x ≤ y ↔ v ≤ w := by
  obtain ⟨o, ho, hcompares⟩ := exists_compares hx hy
  have hgt : o = .gt ↔ w < v := hcompares.eq_gt
  rw [← not_lt (a := w), ← hgt]
  change decide (x.toModel ≤ y.toModel) = true ↔ _
  rw [decide_eq_true_iff]
  change (x.toModel.unpack.compare y.toModel.unpack).any (·.isLE) = true ↔ _
  rw [ho]
  cases o <;> decide

theorem beq_iff (hx : Denotes x v) (hy : Denotes y w) : (x == y) = true ↔ v = w := by
  obtain ⟨o, ho, hcompares⟩ := exists_compares hx hy
  rw [← hcompares.eq_eq]
  change (x.toModel.unpack.compare y.toModel.unpack == some .eq) = true ↔ _
  rw [ho]
  cases o <;> decide

theorem denotes_of_not_isNaN (h : x.isNaN = false) : ∃ v, Denotes x v := by
  change x.toModel.unpack.isNaN = false at h
  cases hx : x.toModel.unpack with
  | notANumber =>
    rw [hx] at h
    cases h
  | infinity s => cases s <;> exact ⟨_, by rw [Denotes, hx]; rfl⟩
  | zero s => exact ⟨_, by rw [Denotes, hx]; rfl⟩
  | finite s m e hm => exact ⟨_, by rw [Denotes, hx]; rfl⟩

theorem Denotes.isNaN (h : Denotes x v) : x.isNaN = false := by
  rw [Denotes] at h
  change x.toModel.unpack.isNaN = false
  cases hx : x.toModel.unpack with
  | notANumber =>
    rw [hx] at h
    cases h
  | _ => rfl

theorem compare_of_isNaN (h : x.isNaN = true) :
    x.toModel.unpack.compare y.toModel.unpack = none := by
  change x.toModel.unpack.isNaN = true at h
  cases hx : x.toModel.unpack with
  | notANumber => rfl
  | _ =>
    rw [hx] at h
    cases h

theorem beq_of_isNaN (h : x.isNaN = true) : (x == y) = false := by
  change (x.toModel.unpack.compare y.toModel.unpack == some .eq) = false
  rw [compare_of_isNaN h]
  rfl

theorem not_le_of_isNaN (h : y.isNaN = true) : ¬ x ≤ y := by
  intro hle
  change decide (x.toModel ≤ y.toModel) = true at hle
  rw [decide_eq_true_iff] at hle
  change (x.toModel.unpack.compare y.toModel.unpack).any (·.isLE) = true at hle
  change y.toModel.unpack.isNaN = true at h
  cases hy : y.toModel.unpack with
  | notANumber =>
    rw [hy] at hle
    cases hx : x.toModel.unpack with
    | infinity s =>
      rw [hx] at hle
      cases s <;> cases hle
    | finite s m e hm =>
      rw [hx] at hle
      cases s <;> cases hle
    | _ =>
      rw [hx] at hle
      cases hle
  | _ =>
    rw [hy] at h
    cases h

theorem not_lt_of_isNaN (h : y.isNaN = true) : ¬ x < y := by
  intro hlt
  apply not_le_of_isNaN (x := x) h
  change decide (x.toModel < y.toModel) = true at hlt
  rw [decide_eq_true_iff] at hlt
  change (x.toModel.unpack.compare y.toModel.unpack == some .lt) = true at hlt
  change decide (x.toModel ≤ y.toModel) = true
  rw [decide_eq_true_iff]
  change (x.toModel.unpack.compare y.toModel.unpack).any (·.isLE) = true
  rw [eq_of_beq hlt]
  rfl

theorem not_gt_of_isNaN (h : x.isNaN = true) : ¬ x < y := by
  intro hlt
  change decide (x.toModel < y.toModel) = true at hlt
  rw [decide_eq_true_iff] at hlt
  change (x.toModel.unpack.compare y.toModel.unpack == some .lt) = true at hlt
  rw [compare_of_isNaN h] at hlt
  cases hlt

theorem isNaN_of_le (h : x ≤ y) : y.isNaN = false :=
  Bool.eq_false_iff.mpr fun hy => not_le_of_isNaN hy h

theorem le_trans_of_isNaN {z : Float} (hx : x.isNaN = false) (hxy : x ≤ y) (hyz : y ≤ z) :
    x ≤ z := by
  obtain ⟨u, hu⟩ := denotes_of_not_isNaN hx
  obtain ⟨v, hv⟩ := denotes_of_not_isNaN (isNaN_of_le hxy)
  obtain ⟨w, hw⟩ := denotes_of_not_isNaN (isNaN_of_le hyz)
  rw [le_iff hu hw]
  exact ((le_iff hu hv).mp hxy).trans ((le_iff hv hw).mp hyz)

theorem le_of_not_lt_of_isNaN (hx : x.isNaN = false) (hy : y.isNaN = false) (h : ¬ x < y) :
    y ≤ x := by
  obtain ⟨v, hv⟩ := denotes_of_not_isNaN hx
  obtain ⟨w, hw⟩ := denotes_of_not_isNaN hy
  rw [lt_iff hv hw] at h
  exact (le_iff hw hv).mpr (not_lt.mp h)

theorem not_le_of_lt (h : x < y) : ¬ y ≤ x := by
  intro hle
  obtain ⟨v, hv⟩ := denotes_of_not_isNaN (isNaN_of_le hle)
  obtain ⟨w, hw⟩ := denotes_of_not_isNaN (Bool.eq_false_iff.mpr fun hy => not_lt_of_isNaN hy h)
  exact absurd ((le_iff hw hv).mp hle) (not_le.mpr ((lt_iff hv hw).mp h))

theorem le_self_of_isNaN (hx : x.isNaN = false) : x ≤ x := by
  obtain ⟨v, hv⟩ := denotes_of_not_isNaN hx
  exact (le_iff hv hv).mpr le_rfl

theorem isFinite_iff : x.isFinite = true ↔ ∃ a : ℝ, Denotes x a := by
  change x.toModel.unpack.isFinite = true ↔ _
  constructor
  · intro h
    cases hx : x.toModel.unpack with
    | zero s => exact ⟨0, by rw [Denotes, hx]; rfl⟩
    | finite s m e hm => exact ⟨_, by rw [Denotes, hx]; rfl⟩
    | _ =>
      rw [hx] at h
      cases h
  · rintro ⟨a, ha⟩
    rcases denotes_real ha with ⟨⟨s, hs⟩, -⟩ | ⟨s, m, e, hm, hs, -⟩
    · rw [hs]
      rfl
    · rw [hs]
      rfl

end Order

section Clamp

variable {x lo hi : Float} {v l h : EReal}

theorem clampF64_cases (x lo hi : Float) :
    clampF64 x lo hi = lo ∨ clampF64 x lo hi = hi ∨ clampF64 x lo hi = x := by
  unfold clampF64
  split_ifs
  · exact .inl rfl
  · exact .inr (.inl rfl)
  · exact .inr (.inr rfl)

theorem clampF64_of_isNaN (hx : x.isNaN = true) : clampF64 x lo hi = x := by
  rw [clampF64, if_neg (not_gt_of_isNaN hx), if_neg (not_lt_of_isNaN hx)]

theorem clampF64_beq_iff (hx : Denotes x v) (hlo : Denotes lo l) (hhi : Denotes hi h) :
    (clampF64 x lo hi == x) = true ↔ lo ≤ x ∧ x ≤ hi := by
  rw [le_iff hlo hx, le_iff hx hhi, clampF64]
  by_cases hlow : x < lo
  · have hv := (lt_iff hx hlo).mp hlow
    rw [if_pos hlow, beq_iff hlo hx]
    constructor
    · intro heq
      exact absurd heq hv.ne'
    · intro hin
      exact absurd hin.1 (not_le.mpr hv)
  · have hv := not_lt.mp (mt (lt_iff hx hlo).mpr hlow)
    rw [if_neg hlow]
    by_cases hhigh : hi < x
    · have hw := (lt_iff hhi hx).mp hhigh
      rw [if_pos hhigh, beq_iff hhi hx]
      constructor
      · intro heq
        exact absurd heq hw.ne
      · intro hin
        exact absurd hin.2 (not_le.mpr hw)
    · have hw := not_lt.mp (mt (lt_iff hhi hx).mpr hhigh)
      rw [if_neg hhigh, beq_iff hx hx]
      exact ⟨fun _ => ⟨hv, hw⟩, fun _ => rfl⟩

theorem denotes_maxF64 {x y : Float} {v w : EReal} (hx : Denotes x v) (hy : Denotes y w) :
    Denotes (maxF64 x y) (max v w) := by
  rw [maxF64, hx.isNaN, hy.isNaN]
  by_cases hlt : x < y
  · rw [if_neg (by decide), if_neg (by decide), if_pos hlt,
      max_eq_right ((lt_iff hx hy).mp hlt).le]
    exact hy
  · rw [if_neg (by decide), if_neg (by decide), if_neg hlt,
      max_eq_left (not_lt.mp (mt (lt_iff hx hy).mpr hlt))]
    exact hx

theorem denotes_minF64 {x y : Float} {v w : EReal} (hx : Denotes x v) (hy : Denotes y w) :
    Denotes (minF64 x y) (min v w) := by
  rw [minF64, hx.isNaN, hy.isNaN]
  by_cases hlt : y < x
  · rw [if_neg (by decide), if_neg (by decide), if_pos hlt,
      min_eq_right ((lt_iff hy hx).mp hlt).le]
    exact hy
  · rw [if_neg (by decide), if_neg (by decide), if_neg hlt,
      min_eq_left (not_lt.mp (mt (lt_iff hy hx).mpr hlt))]
    exact hx

theorem maxF64_cases (x y : Float) : maxF64 x y = x ∨ maxF64 x y = y := by
  unfold maxF64
  split_ifs
  · exact .inr rfl
  · exact .inl rfl
  · exact .inr rfl
  · exact .inl rfl

theorem minF64_cases (x y : Float) : minF64 x y = x ∨ minF64 x y = y := by
  unfold minF64
  split_ifs
  · exact .inr rfl
  · exact .inl rfl
  · exact .inr rfl
  · exact .inl rfl

theorem maxMin_beq_iff (hx : Denotes x v) (hlo : Denotes lo l) (hhi : Denotes hi h)
    (hle : l ≤ h) : (maxF64 lo (minF64 hi x) == x) = true ↔ lo ≤ x ∧ x ≤ hi := by
  rw [beq_iff (denotes_maxF64 hlo (denotes_minF64 hhi hx)) hx, le_iff hlo hx, le_iff hx hhi]
  constructor
  · intro heq
    have hlow : l ≤ v := heq ▸ le_max_left _ _
    refine ⟨hlow, ?_⟩
    rcases max_choice l (min h v) with hc | hc
    · rw [hc] at heq
      exact heq ▸ hle
    · rw [hc] at heq
      exact heq ▸ min_le_left _ _
  · rintro ⟨hlow, hhigh⟩
    rw [min_eq_right hhigh, max_eq_right hlow]

end Clamp

end Binary64
