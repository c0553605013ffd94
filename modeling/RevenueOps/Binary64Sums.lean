import RevenueOps.Binary64Order

/-! Sums, differences and quotients of doubles: each is the exact result, rounded. A result leaves
the doubles only past the largest of them, and only infinities of two signs add up to a NaN. -/
namespace Binary64

open RustFloat RustNumber Float.Model Float.Model.UnpackedFloat

section Sums

variable {x y : Float} {a b : ℝ}

theorem real_of_finite {s : Sign} {m : ℕ} {e : ℤ} {hm : 0 < m}
    (h : x.toModel.unpack = .finite s m e hm) :
    value (Float.Model.pack (.finite s m e hm)).unpack = some (real s m e : ℝ) := by
  rw [(canonical_of_unpack h).unpack_pack]
  rfl

theorem real_decreaseExponent (s : Sign) (m : ℕ) {e t : ℤ} (h : t ≤ e) :
    ((s.apply (decreaseExponent m e t).1 : ℤ) : ℝ) * (2 : ℝ) ^ t = real s m e := by
  rw [← real_shiftLeft s m (e - t).toNat e, Int.toNat_of_nonneg (by omega), sub_sub_cancel]
  rfl

theorem rounds_add (hx : Denotes x a) (hy : Denotes y b) : Rounds (x + y) (a + b) := by
  have hunpack : (x + y).toModel.unpack =
      (Float.Model.pack
        (UnpackedFloat.add Format.binary64 x.toModel.unpack y.toModel.unpack)).unpack :=
    rfl
  simp only [Rounds, Denotes, hunpack]
  rcases denotes_real hx with ⟨⟨s, hs⟩, rfl⟩ | ⟨s, m, e, hm, hs, rfl⟩
  · rcases denotes_real hy with ⟨⟨t, ht⟩, rfl⟩ | ⟨t, n, f, hn, ht, rfl⟩
    · refine ⟨((0 : ℝ) : EReal), ?_, by simpa using faithful_self 0⟩
      rw [hs, ht]
      cases s <;> cases t <;> exact value_zero _
    · refine ⟨(real t n f : ℝ), ?_, by simpa using faithful_self (real t n f)⟩
      rw [hs, ht]
      exact real_of_finite ht
  · rcases denotes_real hy with ⟨⟨t, ht⟩, rfl⟩ | ⟨t, n, f, hn, ht, rfl⟩
    · refine ⟨(real s m e : ℝ), ?_, by simpa using faithful_self (real s m e)⟩
      rw [hs, ht]
      exact real_of_finite hs
    · rw [hs, ht, ← real_decreaseExponent s m (min_le_left e f),
        ← real_decreaseExponent t n (min_le_right e f), ← add_mul, ← Int.cast_add]
      exact value_normalize _ (min e f) .positive

theorem rounds_sub (hx : Denotes x a) (hy : Denotes y b) : Rounds (x - y) (a - b) := by
  have hunpack : (x - y).toModel.unpack =
      (Float.Model.pack
        (UnpackedFloat.sub Format.binary64 x.toModel.unpack y.toModel.unpack)).unpack :=
    rfl
  simp only [Rounds, Denotes, hunpack]
  rcases denotes_real hx with ⟨⟨s, hs⟩, rfl⟩ | ⟨s, m, e, hm, hs, rfl⟩
  · rcases denotes_real hy with ⟨⟨t, ht⟩, rfl⟩ | ⟨t, n, f, hn, ht, rfl⟩
    · refine ⟨((0 : ℝ) : EReal), ?_, by simpa using faithful_self 0⟩
      rw [hs, ht]
      cases s <;> cases t <;> exact value_zero _
    · have hneg : real (-t) n f = -real t n f := by
        cases t
        · exact (neg_eq_iff_eq_neg.mpr (real_negative n f)).symm
        · exact real_negative n f
      refine ⟨(real (-t) n f : ℝ), ?_, by simpa [hneg] using faithful_self (-real t n f)⟩
      rw [hs, ht]
      change value (Float.Model.pack (.finite (-t) n f hn)).unpack = _
      rw [(canonical_of_unpack ht).unpack_pack]
      rfl
  · rcases denotes_real hy with ⟨⟨t, ht⟩, rfl⟩ | ⟨t, n, f, hn, ht, rfl⟩
    · refine ⟨(real s m e : ℝ), ?_, by simpa using faithful_self (real s m e)⟩
      rw [hs, ht]
      exact real_of_finite hs
    · rw [hs, ht, ← real_decreaseExponent s m (min_le_left e f),
        ← real_decreaseExponent t n (min_le_right e f), ← sub_mul, ← Int.cast_sub]
      exact value_normalize _ (min e f) .positive

end Sums

section Quotients

def quarters : Accuracy → ℕ
  | .exact => 0
  | .inexact .lt => 1
  | .inexact .eq => 2
  | .inexact .gt => 3

theorem quarters_le (acc : Accuracy) : quarters acc ≤ 3 := by
  cases acc with
  | exact => decide
  | inexact o => cases o <;> decide

theorem quarters_exact {r d : ℕ} (h : r = 0) : quarters (accuracyOfFraction r d) = 0 := by
  subst h
  rfl

theorem quarters_pos {r d : ℕ} (h : r ≠ 0) : 0 < quarters (accuracyOfFraction r d) := by
  rw [accuracyOfFraction, if_neg h]
  cases compare (2 * r) d <;> decide

theorem log2_le_one_of_le_three {n : ℕ} (h : n ≤ 3) : n.log2 ≤ 1 := by
  by_cases hn : n = 0
  · subst hn
    decide
  · have := (Nat.log2_lt hn).mpr (by omega : n < 2 ^ 2)
    omega

theorem shiftRightOne_twice (q : ℕ) {c : ℕ} (hc : c ≤ 3) :
    (⟨4 * q + c, false, false⟩ : ExtendedMantissa).shiftRightOne.shiftRightOne =
      ⟨q, decide (2 ≤ c), decide (c % 2 = 1)⟩ := by
  change ExtendedMantissa.mk ((4 * q + c) / 2 / 2) ((4 * q + c) / 2 % 2 != 0)
    ((4 * q + c) % 2 != 0 || (false || false)) = _
  have hmantissa : (4 * q + c) / 2 / 2 = q := by omega
  have hround : (4 * q + c) / 2 % 2 = c / 2 := by omega
  have hsticky : (4 * q + c) % 2 = c % 2 := by omega
  rw [hmantissa, hround, hsticky]
  obtain rfl | rfl | rfl | rfl : c = 0 ∨ c = 1 ∨ c = 2 ∨ c = 3 := by omega
  all_goals rfl

theorem shiftRight_quarters (q k : ℕ) (acc : Accuracy) :
    (⟨4 * q + quarters acc, false, false⟩ : ExtendedMantissa) >>> (k + 2) =
      ExtendedMantissa.ofMantissaAndAccuracy q acc >>> k := by
  induction k with
  | zero =>
    change ExtendedMantissa.shiftRightOne (ExtendedMantissa.shiftRightOne ⟨_, _, _⟩) = _
    rw [shiftRightOne_twice q (quarters_le acc)]
    rcases acc with _ | _ | _ | _ <;> rfl
  | succ k ih => exact congrArg ExtendedMantissa.shiftRightOne ih

theorem roundWithAccuracy_quarters (s : Sign) {q : ℕ} {t : ℤ} (acc : Accuracy)
    (hfine : 52 ≤ q.log2 ∨ t ≤ -1074) :
    roundWithAccuracy Format.binary64 s q t acc =
      roundWithAccuracy Format.binary64 s (4 * q + quarters acc) (t - 2) .exact := by
  have hquarters := quarters_le acc
  have htarget : max (((4 * q + quarters acc).log2 : ℤ) + (t - 2) - 52) (-1074) =
      max ((q.log2 : ℤ) + t - 52) (-1074) := by
    by_cases hq : q = 0
    · subst hq
      have hlog : (4 * 0 + quarters acc).log2 ≤ 1 := log2_le_one_of_le_three (by omega)
      have hzero : Nat.log2 0 = 0 := rfl
      rw [hzero] at hfine ⊢
      omega
    · have hlog : (4 * q + quarters acc).log2 = q.log2 + 2 := by
        have hlow := Nat.log2_self_le hq
        have hhigh := lt_of_log2 q
        rw [Nat.log2_eq_iff (by omega)]
        rw [pow_succ] at hhigh
        constructor
        · rw [pow_add]
          omega
        · rw [pow_add, pow_add]
          omega
      omega
  have hshift : shiftToTargetExponent Format.binary64 q t acc =
      shiftToTargetExponent Format.binary64 (4 * q + quarters acc) (t - 2) .exact := by
    rw [shiftToTargetExponent, shiftToTargetExponent, targetExponent_eq, targetExponent_eq, htarget]
    generalize hk : (max ((q.log2 : ℤ) + t - 52) (-1074) - t).toNat = k
    have hk' : (max ((q.log2 : ℤ) + t - 52) (-1074) - (t - 2)).toNat = k + 2 := by omega
    rw [shiftToExponent, shiftToExponent, hk, hk']
    refine Prod.ext (shiftRight_quarters q k acc).symm ?_
    push_cast
    omega
  rw [roundWithAccuracy, roundWithAccuracy, hshift]

theorem log2_lt_52 {n : ℕ} (h : n < 2 ^ 52) : n.log2 < 52 := by
  by_cases hn : n = 0
  · subst hn
    decide
  · exact (Nat.log2_lt hn).mpr h

/-- The quotient of mantissas that division works with: enough bits, or the lowest exponent. -/
theorem quotient_fine {m d : ℕ} {e t : ℤ} (hm : 0 < m) (hd : 0 < d)
    (ht : t = min e (max ((m.log2 : ℤ) - d.log2 + e - 53) (-1074))) :
    52 ≤ (m <<< (e - t).toNat / d).log2 ∨ t ≤ -1074 := by
  by_cases hlow : t ≤ -1074
  · exact .inr hlow
  · left
    have hshift : m <<< (e - t).toNat = m * 2 ^ (e - t).toNat := Nat.shiftLeft_eq _ _
    have hbits : d.log2 + 53 ≤ m.log2 + (e - t).toNat := by omega
    have hquot : 2 ^ 52 ≤ m <<< (e - t).toNat / d := by
      rw [hshift, Nat.le_div_iff_mul_le hd]
      calc 2 ^ 52 * d ≤ 2 ^ 52 * 2 ^ (d.log2 + 1) := Nat.mul_le_mul_left _ (lt_of_log2 d).le
        _ = 2 ^ (d.log2 + 53) := by rw [← Nat.pow_add]; congr 1; omega
        _ ≤ 2 ^ (m.log2 + (e - t).toNat) := Nat.pow_le_pow_right (by decide) hbits
        _ = 2 ^ m.log2 * 2 ^ (e - t).toNat := Nat.pow_add 2 _ _
        _ ≤ m * 2 ^ (e - t).toNat := Nat.mul_le_mul_right _ (Nat.log2_self_le (by omega))
    have hpos := Nat.two_pow_pos 52
    exact (Nat.le_log2 (by omega)).mpr hquot

theorem quarters_between {n d : ℕ} {t : ℤ} (hd : 0 < d)
    (hfine : 52 ≤ (n / d).log2 ∨ t ≤ -1074) {g : ℝ} (hg : Double g) :
    (g ≤ n / d * (2 : ℝ) ^ t →
        g ≤ real .positive (4 * (n / d) + quarters (accuracyOfFraction (n % d) d)) (t - 2)) ∧
      (n / d * (2 : ℝ) ^ t ≤ g →
        real .positive (4 * (n / d) + quarters (accuracyOfFraction (n % d) d)) (t - 2) ≤ g) := by
  have hsplit := Nat.div_add_mod n d
  have hmod := Nat.mod_lt n hd
  have hquarters := quarters_le (accuracyOfFraction (n % d) d)
  have hexact := @quarters_exact (n % d) d
  have hdR : (0 : ℝ) < d := by exact_mod_cast hd
  have hunit : (0 : ℝ) < 2 ^ t := zpow_pos two_pos t
  generalize n / d = q at *
  generalize quarters (accuracyOfFraction (n % d) d) = c at *
  generalize n % d = r at *
  have hcR : (c : ℝ) ≤ 3 := by exact_mod_cast hquarters
  have hreal : real .positive (4 * q + c) (t - 2) = (q + c / 4) * 2 ^ t := by
    rw [real_positive, zpow_sub₀ two_ne_zero]
    push_cast
    ring
  have hlow : (q : ℝ) * 2 ^ t ≤ (q + c / 4) * 2 ^ t := by
    have : (0 : ℝ) ≤ c := Nat.cast_nonneg c
    gcongr
    linarith
  rw [hreal]
  rcases hg.multiple t with ⟨j, rfl⟩ | ⟨htop, hbelow⟩
  · constructor
    · intro hle
      have hj : (j : ℝ) * d ≤ n := (le_div_iff₀ hdR).mp (le_of_mul_le_mul_right hle hunit)
      have hjZ : j * d ≤ n := by exact_mod_cast hj
      have hjq : j ≤ q := by
        by_contra hlt
        have hprod : ((q : ℤ) + 1) * d ≤ j * d :=
          Int.mul_le_mul_of_nonneg_right (by omega) (by omega)
        push_cast [← hsplit] at hjZ
        rw [add_mul, mul_comm (q : ℤ)] at hprod
        omega
      have hjR : (j : ℝ) ≤ q := by exact_mod_cast hjq
      exact (mul_le_mul_of_nonneg_right hjR hunit.le).trans hlow
    · intro hle
      have hj : (n : ℝ) ≤ j * d := (div_le_iff₀ hdR).mp (le_of_mul_le_mul_right hle hunit)
      have hjZ : (n : ℤ) ≤ j * d := by exact_mod_cast hj
      push_cast [← hsplit] at hjZ
      by_cases hrest : r = 0
      · have hjq : (q : ℤ) ≤ j := by
          refine le_of_mul_le_mul_right ?_ (by omega : (0 : ℤ) < d)
          rw [mul_comm]
          omega
        have hjR : (q : ℝ) ≤ j := by exact_mod_cast hjq
        rw [hexact hrest, Nat.cast_zero, zero_div, add_zero]
        exact mul_le_mul_of_nonneg_right hjR hunit.le
      · have hjq : (q : ℤ) < j := by
          refine lt_of_mul_lt_mul_right ?_ (by omega : (0 : ℤ) ≤ d)
          rw [mul_comm]
          omega
        have hjR : (q : ℝ) + 1 ≤ j := by exact_mod_cast hjq
        refine mul_le_mul_of_nonneg_right ?_ hunit.le
        linarith
  · have hpos := Nat.two_pow_pos 52
    have hq : 2 ^ 52 ≤ q := by
      have hlog := hfine.resolve_right (by omega)
      by_contra hlt
      have := log2_lt_52 (not_le.mp hlt)
      omega
    have hqR : (2 : ℝ) ^ 52 ≤ q := by exact_mod_cast hq
    constructor
    · intro _
      exact (hbelow.trans (mul_le_mul_of_nonneg_right hqR hunit.le)).trans hlow
    · intro hle
      -- the quotient is the smallest full mantissa, and nothing is left over
      have hn : (n : ℝ) ≤ 2 ^ 52 * d :=
        (div_le_iff₀ hdR).mp (le_of_mul_le_mul_right (hle.trans hbelow) hunit)
      have hnN : n ≤ 2 ^ 52 * d := by exact_mod_cast hn
      have hprod : d * 2 ^ 52 ≤ d * q := Nat.mul_le_mul_left d hq
      have hrest : r = 0 := by omega
      have hsplitR : (d : ℝ) * q = n := by
        rw [← hsplit, hrest]
        push_cast
        ring
      rw [hexact hrest, Nat.cast_zero, zero_div, add_zero]
      refine le_trans (le_of_eq ?_) hle
      rw [← hsplitR, mul_div_cancel_left₀ _ hdR.ne']

theorem Faithful.of_between {p q : ℝ} {v : EReal} (h : Faithful p v)
    (hbetween : ∀ {g : ℝ}, Double g → (g ≤ q → g ≤ p) ∧ (q ≤ g → p ≤ g)) : Faithful q v :=
  ⟨fun hg hle => h.lower hg ((hbetween hg).1 hle), fun hg hle => h.upper hg ((hbetween hg).2 hle)⟩

theorem apply_one_positive : ((Sign.positive.apply 1 : ℤ) : ℝ) = 1 := by norm_num [Sign.apply]
theorem apply_one_negative : ((Sign.negative.apply 1 : ℤ) : ℝ) = -1 := by norm_num [Sign.apply]

theorem real_div (s t : Sign) (m n : ℕ) (e f : ℤ) :
    real s m e / real t n f = ((s / t).apply 1 : ℤ) * (m / n * (2 : ℝ) ^ (e - f)) := by
  have hpositive : real .positive m e / real .positive n f = m / n * (2 : ℝ) ^ (e - f) := by
    rw [real_positive, real_positive, zpow_sub₀ two_ne_zero, mul_div_mul_comm]
  rw [← hpositive]
  cases s
  · cases t
    · change _ = ((Sign.positive.apply 1 : ℤ) : ℝ) * _
      rw [apply_one_positive, one_mul, real_negative, real_negative, neg_div_neg_eq]
    · change _ = ((Sign.negative.apply 1 : ℤ) : ℝ) * _
      rw [apply_one_negative, neg_one_mul, real_negative, neg_div]
  · cases t
    · change _ = ((Sign.negative.apply 1 : ℤ) : ℝ) * _
      rw [apply_one_negative, neg_one_mul, real_negative, div_neg]
    · change _ = ((Sign.positive.apply 1 : ℤ) : ℝ) * _
      rw [apply_one_positive, one_mul]

theorem value_quotient (s : Sign) {m d : ℕ} {e t : ℤ} (hm : 0 < m) (hd : 0 < d)
    (ht : t = min e (max ((m.log2 : ℤ) - d.log2 + e - 53) (-1074))) :
    ∃ v, value (Float.Model.pack (roundWithAccuracy Format.binary64 s (m <<< (e - t).toNat / d) t
        (accuracyOfFraction (m <<< (e - t).toNat % d) d))).unpack = some v ∧
      Faithful ((s.apply 1 : ℤ) * (m / d * (2 : ℝ) ^ e)) v := by
  have hfine := quotient_fine hm hd ht
  have hshift : m <<< (e - t).toNat = m * 2 ^ (e - t).toNat := Nat.shiftLeft_eq _ _
  have hexact : (m : ℝ) / d * 2 ^ e = (m <<< (e - t).toNat : ℕ) / d * 2 ^ t := by
    have hpow : (2 : ℝ) ^ e = 2 ^ (e - t).toNat * 2 ^ t := by
      rw [← zpow_natCast, ← zpow_add₀ two_ne_zero]
      congr 1
      omega
    rw [hshift, hpow]
    push_cast
    ring
  have hn : 0 < m <<< (e - t).toNat := by
    rw [hshift]
    exact Nat.mul_pos hm (Nat.two_pow_pos _)
  rw [hexact]
  generalize m <<< (e - t).toNat = n at *
  have hpos : 0 < 4 * (n / d) + quarters (accuracyOfFraction (n % d) d) := by
    by_contra hzero
    have hrest : n % d = 0 := by
      by_contra hne
      have : 0 < quarters (accuracyOfFraction (n % d) d) := quarters_pos hne
      omega
    have hsplit := Nat.div_add_mod n d
    have hquot : n / d = 0 := by omega
    rw [hquot, hrest, Nat.mul_zero] at hsplit
    omega
  have hfine' : 52 ≤ (4 * (n / d) + quarters (accuracyOfFraction (n % d) d)).log2 ∨
      t - 2 ≤ -1074 := by
    rcases hfine with hlog | hlow
    · have hq : n / d ≠ 0 := fun hzero => by
        rw [hzero] at hlog
        exact absurd hlog (by decide)
      left
      rw [Nat.le_log2 (by omega)]
      have := (Nat.le_log2 hq).mp hlog
      omega
    · exact .inr (by omega)
  rw [roundWithAccuracy_quarters s _ hfine]
  obtain ⟨v, hv, hround⟩ := value_roundWithAccuracy s hpos hfine'
  refine ⟨v, hv, ?_⟩
  have hbetween : ∀ {g : ℝ}, Double g → _ := fun hg => quarters_between hd hfine hg
  cases s with
  | positive =>
    refine hround.of_between fun {g} hg => ?_
    rw [apply_one_positive, one_mul]
    exact hbetween hg
  | negative =>
    rw [real_negative] at hround
    refine hround.of_between fun {g} hg => ?_
    obtain ⟨hlow, hhigh⟩ := hbetween hg.neg
    rw [apply_one_negative, neg_one_mul]
    constructor
    · intro hle
      linarith [hhigh (by linarith)]
    · intro hle
      linarith [hlow (by linarith)]

variable {x y : Float} {a b : ℝ}

theorem rounds_div (hx : Denotes x a) (hy : Denotes y b) (hb : b ≠ 0) : Rounds (x / y) (a / b) := by
  have hunpack : (x / y).toModel.unpack =
      (Float.Model.pack
        (UnpackedFloat.div Format.binary64 x.toModel.unpack y.toModel.unpack)).unpack :=
    rfl
  simp only [Rounds, Denotes, hunpack]
  rcases denotes_real hy with ⟨-, rfl⟩ | ⟨t, n, f, hn, ht, rfl⟩
  · exact absurd rfl hb
  · rcases denotes_real hx with ⟨⟨s, hs⟩, rfl⟩ | ⟨s, m, e, hm, hs, rfl⟩
    · refine ⟨((0 : ℝ) : EReal), ?_, by simpa using faithful_self 0⟩
      rw [hs, ht]
      exact value_zero (s / t)
    · rw [hs, ht, real_div]
      refine value_quotient (s / t) hm hn ?_
      change min (e - f) (max ((m.log2 : ℤ) + 1 + e - (n.log2 + 1 + f) - (52 + 1)) (-1074)) = _
      omega

theorem denotes_div_top (hx : Denotes x a) (hy : Denotes y ⊤) : Denotes (x / y) (0 : ℝ) := by
  have hunpack : (x / y).toModel.unpack =
      (Float.Model.pack
        (UnpackedFloat.div Format.binary64 x.toModel.unpack y.toModel.unpack)).unpack :=
    rfl
  have hinf : ∃ t, y.toModel.unpack = .infinity t := by
    rw [Denotes] at hy
    cases hyu : y.toModel.unpack with
    | infinity t => exact ⟨t, rfl⟩
    | notANumber =>
      rw [hyu] at hy
      cases hy
    | zero t =>
      rw [hyu] at hy
      exact absurd (Option.some.inj hy) EReal.zero_ne_top
    | finite t n f hn =>
      rw [hyu] at hy
      exact absurd (Option.some.inj hy) (EReal.coe_ne_top _)
  obtain ⟨t, ht⟩ := hinf
  rw [Denotes, hunpack, ht]
  rcases denotes_real hx with ⟨⟨s, hs⟩, rfl⟩ | ⟨s, m, e, hm, hs, rfl⟩
  · rw [hs]
    exact value_zero (s / t)
  · rw [hs]
    exact value_zero (s / t)

end Quotients

section Limits

variable {x y : Float} {a b g q : ℝ} {v w : EReal}

theorem Denotes.unique (hx : Denotes x v) (hx' : Denotes x w) : v = w :=
  Option.some.inj (hx.symm.trans hx')

theorem double_zero : Double 0 := grid_zero.double

theorem double_of_denotes (h : Denotes x a) : Double a := by
  rcases denotes_real h with ⟨-, rfl⟩ | ⟨s, m, e, hm, hs, rfl⟩
  · exact double_zero
  · obtain ⟨hshort, hlow, hhigh, -⟩ := canonical_of_unpack hs
    refine ⟨s.apply m, e, ?_, hlow, hhigh, rfl⟩
    cases s
    · change |-(m : ℤ)| < 2 ^ 53
      rw [abs_neg, abs_of_nonneg (by omega)]
      exact_mod_cast hshort
    · change |(m : ℤ)| < 2 ^ 53
      rw [abs_of_nonneg (by omega)]
      exact_mod_cast hshort

theorem Double.magnitude (h : Double g) : Double |g| := by
  rcases abs_choice g with hg | hg
  · rwa [hg]
  · rw [hg]
    exact h.neg

theorem Rounds.between (h : Rounds x q) (ha : Double a) (hb : Double b) (haq : a ≤ q)
    (hqb : q ≤ b) : ∃ r : ℝ, Denotes x r ∧ a ≤ r ∧ r ≤ b := by
  obtain ⟨v, hv, hround⟩ := h
  have hlo := hround.lower ha haq
  have hhi := hround.upper hb hqb
  induction v using EReal.rec with
  | bot => exact absurd (le_bot_iff.mp hlo) (EReal.coe_ne_bot a)
  | coe r => exact ⟨r, hv, EReal.coe_le_coe_iff.mp hlo, EReal.coe_le_coe_iff.mp hhi⟩
  | top => exact absurd (top_le_iff.mp hhi) (EReal.coe_ne_top b)

theorem Rounds.bounded (h : Rounds x q) (hg : Double g) (hq : |q| ≤ g) :
    ∃ r : ℝ, Denotes x r ∧ |r| ≤ g := by
  obtain ⟨hlow, hhigh⟩ := abs_le.mp hq
  obtain ⟨r, hr, hlo, hhi⟩ := h.between hg.neg hg hlow hhigh
  exact ⟨r, hr, abs_le.mpr ⟨hlo, hhi⟩⟩

theorem denotes_abs (h : Denotes x a) : Denotes x.abs (|a| : ℝ) := by
  have hunpack : x.abs.toModel.unpack = (Float.Model.pack x.toModel.unpack.abs).unpack := rfl
  rw [Denotes, hunpack]
  rcases denotes_real h with ⟨⟨s, hs⟩, rfl⟩ | ⟨s, m, e, hm, hs, rfl⟩
  · rw [hs, abs_zero]
    exact value_zero .positive
  · have habs : |real s m e| = real .positive m e := by
      have hpos := real_positive_pos hm e
      cases s
      · rw [real_negative, abs_neg, abs_of_pos hpos]
      · exact abs_of_pos hpos
    rw [hs, habs]
    change value (Float.Model.pack (.finite .positive m e hm)).unpack = _
    rw [(canonical_of_unpack hs).unpack_pack]
    rfl

theorem Double.bounded (h : Double g) : |g| ≤ 9007199254740991 * 2 ^ (971 : ℤ) := by
  obtain ⟨n, k, hn, -, hk, rfl⟩ := h
  have hn' : |n| ≤ 9007199254740991 := by
    norm_num at hn
    omega
  have hnR : |(n : ℝ)| ≤ 9007199254740991 := by exact_mod_cast hn'
  rw [abs_mul, abs_of_pos (zpow_pos two_pos k : (0 : ℝ) < 2 ^ k)]
  gcongr
  exact one_le_two

theorem double_largest : Double (9007199254740991 * 2 ^ (971 : ℤ)) :=
  ⟨9007199254740991, 971, by norm_num, by norm_num, le_rfl, by norm_num⟩

theorem Double.twice (h : Double g) (hle : 2 * g ≤ 9007199254740991 * 2 ^ (971 : ℤ))
    (hpos : 0 ≤ g) : Double (2 * g) := by
  obtain ⟨n, k, hn, hk, hk', rfl⟩ := h
  by_cases htop : k = 971
  · subst htop
    have hunit : (0 : ℝ) < 2 ^ (971 : ℤ) := zpow_pos two_pos _
    have hnonneg : (0 : ℝ) ≤ n := nonneg_of_mul_nonneg_left hpos hunit
    have hlow : 0 ≤ n := by exact_mod_cast hnonneg
    have hhigh : 2 * n ≤ 9007199254740991 := by
      rw [← mul_assoc] at hle
      exact_mod_cast le_of_mul_le_mul_right hle hunit
    refine ⟨2 * n, 971, ?_, hk, le_rfl, by push_cast; ring⟩
    rw [abs_of_nonneg (by omega)]
    norm_num
    omega
  · refine ⟨n, k + 1, hn, by omega, by omega, ?_⟩
    rw [zpow_add_one₀ two_ne_zero]
    ring

def largest (s : Sign) : Float :=
  Float.ofModel (Float.Model.pack (.finite s 9007199254740991 971 (by decide)))

theorem unpack_largest (s : Sign) :
    (largest s).toModel.unpack = .finite s 9007199254740991 971 (by decide) :=
  Canonical.unpack_pack ⟨by norm_num, by norm_num, le_rfl, by norm_num⟩ s _

theorem denotes_largest : Denotes (largest .positive) (9007199254740991 * 2 ^ (971 : ℤ) : ℝ) := by
  have h := denotes_finite (unpack_largest .positive)
  rw [real_positive] at h
  exact_mod_cast h

theorem largest_or_below (h : Denotes x a) :
    (∃ s, x.toModel.unpack = (largest s).toModel.unpack) ∨
      |a| ≤ 9007199254740990 * 2 ^ (971 : ℤ) := by
  rcases denotes_real h with ⟨-, rfl⟩ | ⟨s, m, e, hm, hs, rfl⟩
  · right
    rw [abs_zero]
    positivity
  · obtain ⟨hshort, -, hhigh, -⟩ := canonical_of_unpack hs
    by_cases hlargest : m = 9007199254740991 ∧ e = 971
    · left
      obtain ⟨rfl, rfl⟩ := hlargest
      exact ⟨s, hs.trans (unpack_largest s).symm⟩
    · right
      have habs : |real s m e| = m * 2 ^ e := by
        have hpos := real_positive_pos hm e
        cases s
        · rw [real_negative, abs_neg, abs_of_pos hpos, real_positive]
        · rw [abs_of_pos hpos, real_positive]
      rw [habs]
      by_cases he : e = 971
      · subst he
        have hm' : (m : ℝ) ≤ 9007199254740990 := by
          have : m ≤ 9007199254740990 := by
            norm_num at hshort
            omega
          exact_mod_cast this
        gcongr
      · have hm' : (m : ℝ) ≤ 2 ^ 53 := by exact_mod_cast hshort.le
        have hstep : (2 : ℝ) ^ e ≤ 2 ^ (970 : ℤ) := zpow_le_zpow_right₀ one_le_two (by omega)
        calc (m : ℝ) * 2 ^ e ≤ 2 ^ 53 * 2 ^ (970 : ℤ) := by gcongr
          _ = 4503599627370496 * 2 ^ (971 : ℤ) := by
            rw [show (971 : ℤ) = 970 + 1 by norm_num, zpow_add_one₀ two_ne_zero]
            ring
          _ ≤ 9007199254740990 * 2 ^ (971 : ℤ) := by
            gcongr
            norm_num

theorem value_infinity (s : Sign) :
    ∃ v, value (Float.Model.pack (.infinity s)).unpack = some v := by
  cases s
  · exact ⟨⊥, rfl⟩
  · exact ⟨⊤, rfl⟩

theorem exists_real (h : Denotes x v) : (∃ s, x.toModel.unpack = .infinity s) ∨ ∃ a : ℝ, v = a := by
  rw [Denotes] at h
  cases hx : x.toModel.unpack with
  | notANumber =>
    rw [hx] at h
    cases h
  | infinity s => exact .inl ⟨s, rfl⟩
  | zero s =>
    rw [hx] at h
    exact .inr ⟨0, (Option.some.inj h).symm⟩
  | finite s m e hm =>
    rw [hx] at h
    exact .inr ⟨_, (Option.some.inj h).symm⟩

theorem denotes_add (hx : Denotes x v) (hy : Denotes y w)
    (hreal : (∃ a : ℝ, v = a) ∨ ∃ b : ℝ, w = b) : ∃ u, Denotes (x + y) u := by
  have hunpack : (x + y).toModel.unpack =
      (Float.Model.pack
        (UnpackedFloat.add Format.binary64 x.toModel.unpack y.toModel.unpack)).unpack :=
    rfl
  simp only [Denotes, hunpack]
  rcases exists_real hx with ⟨s, hs⟩ | ⟨a, rfl⟩
  · rcases exists_real hy with ⟨t, ht⟩ | ⟨b, rfl⟩
    · rw [Denotes, hs] at hx
      rw [Denotes, ht] at hy
      exfalso
      rcases hreal with ⟨a, rfl⟩ | ⟨b, rfl⟩
      · cases s <;> cases hx
      · cases t <;> cases hy
    · rw [hs]
      rcases denotes_real hy with ⟨⟨t, ht⟩, -⟩ | ⟨t, n, f, hn, ht, -⟩
      · rw [ht]
        exact value_infinity s
      · rw [ht]
        exact value_infinity s
  · rcases exists_real hy with ⟨t, ht⟩ | ⟨b, rfl⟩
    · rw [ht]
      rcases denotes_real hx with ⟨⟨s, hs⟩, -⟩ | ⟨s, m, e, hm, hs, -⟩
      · rw [hs]
        exact value_infinity t
      · rw [hs]
        exact value_infinity t
    · obtain ⟨u, hu, -⟩ := rounds_add hx hy
      exact ⟨u, hu⟩

end Limits

end Binary64
