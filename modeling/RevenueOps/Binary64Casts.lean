import RevenueOps.Binary64

/-! From a double to a whole number: the saturating cast to i64, floor, ceil and the rounding with
ties to even. None of them passes a whole number on its way. -/
namespace Binary64

open RustFloat RustNumber Float.Model Float.Model.UnpackedFloat

variable {x : Float}

structure Whole (v : ℝ) (w : ℤ) : Prop where
  lower : ∀ n : ℤ, (n : ℝ) ≤ v → n ≤ w
  upper : ∀ n : ℤ, v ≤ (n : ℝ) → w ≤ n

theorem Whole.self (n : ℤ) : Whole n n :=
  ⟨fun _ h => Int.cast_le.mp h, fun _ h => Int.cast_le.mp h⟩

theorem Whole.neg {v : ℝ} {w : ℤ} (h : Whole v w) : Whole (-v) (-w) := by
  constructor
  · intro n hn
    have := h.upper (-n) (by push_cast; linarith)
    omega
  · intro n hn
    have := h.lower (-n) (by push_cast; linarith)
    omega

theorem whole_quotient {a b t : ℕ} (hb : 0 < b) (hlo : a / b ≤ t) (hhi : t ≤ (a + b - 1) / b) :
    Whole (a / b : ℝ) t := by
  have hpos : (0 : ℝ) < b := by exact_mod_cast hb
  constructor
  · intro n hn
    rw [le_div_iff₀ hpos] at hn
    by_cases hneg : n < 0
    · omega
    · lift n to ℕ using (by omega)
      have hnat : n * b ≤ a := by exact_mod_cast hn
      exact_mod_cast ((Nat.le_div_iff_mul_le hb).mpr hnat).trans hlo
  · intro n hn
    rw [div_le_iff₀ hpos] at hn
    have hint : (a : ℤ) ≤ n * b := by exact_mod_cast hn
    have hnonneg : 0 ≤ n := by
      by_contra hneg
      have hprod : n * (b : ℤ) < 0 := mul_neg_of_neg_of_pos (by omega) (by exact_mod_cast hb)
      omega
    lift n to ℕ using hnonneg
    have hnat : a ≤ n * b := by exact_mod_cast hint
    have hup : (a + b - 1) / b ≤ n := by
      rw [Nat.div_le_iff_le_mul hb]
      omega
    exact_mod_cast hhi.trans hup

theorem whole_apply (s : Sign) {a b t : ℕ} (hb : 0 < b) (hlo : a / b ≤ t)
    (hhi : t ≤ (a + b - 1) / b) : Whole ((s.apply a : ℤ) / b) (s.apply t) := by
  have h := whole_quotient hb hlo hhi
  cases s with
  | positive => exact h
  | negative =>
    simp only [Sign.apply]
    push_cast
    rw [neg_div]
    exact h.neg

theorem real_quotient (s : Sign) (m : ℕ) (e : ℤ) :
    real s m e = (s.apply (m * 2 ^ e.toNat : ℕ) : ℤ) / ((2 ^ (-e).toNat : ℕ) : ℝ) := by
  have hsplit : (2 : ℝ) ^ e = 2 ^ e.toNat / 2 ^ (-e).toNat := by
    rw [← zpow_natCast, ← zpow_natCast, ← zpow_sub₀ two_ne_zero]
    congr 1
    omega
  rw [real, hsplit]
  cases s
  · simp only [Sign.apply]
    push_cast
    ring
  · simp only [Sign.apply]
    push_cast
    ring

theorem roundToInt_eq (s : Sign) (m : ℕ) (e : ℤ) :
    roundToInt s m e = s.apply (m * 2 ^ e.toNat / 2 ^ (-e).toNat : ℕ) := by
  have hshift : (0 - (e - e.toNat : ℤ)).toNat = (-e).toNat := by omega
  simp only [roundToInt, decreaseExponent, shiftToExponent, sub_zero, hshift, Nat.shiftLeft_eq]
  rw [← (shifted_shiftRight (m * 2 ^ e.toNat) (-e).toNat).mantissa]
  rfl

theorem whole_roundToInt (s : Sign) (m : ℕ) (e : ℤ) : Whole (real s m e) (roundToInt s m e) := by
  have hpos := Nat.two_pow_pos (-e).toNat
  rw [real_quotient, roundToInt_eq]
  exact whole_apply s hpos le_rfl (Nat.div_le_div_right (by omega))

section Cast

theorem asI64_eq (x : Float) :
    asI64 x = max (-9223372036854775808) (min 9223372036854775807
      (x.toModel.unpack.toInt (-9223372036854775808) 9223372036854775807)) := by
  have hmin : Int64.minValue.toInt = -9223372036854775808 := by decide
  have hmax : Int64.maxValue.toInt = 9223372036854775807 := by decide
  change (Int64.ofIntClamp
    (x.toModel.unpack.toInt Int64.minValue.toInt Int64.maxValue.toInt)).toInt = _
  rw [hmin, hmax, Int64.ofIntClamp]
  generalize x.toModel.unpack.toInt (-9223372036854775808) 9223372036854775807 = i
  split
  · rename_i hlow
    rw [hmin] at hlow
    split
    · rename_i hhigh
      rw [hmax] at hhigh
      rw [Int64.ofIntLE, Int64.toInt_ofInt_of_le (by omega) (by omega)]
      omega
    · rename_i hhigh
      rw [hmax] at hhigh
      rw [hmax]
      omega
  · rename_i hlow
    rw [hmin] at hlow
    rw [hmin]
    omega

theorem asI64_bounds (x : Float) :
    -9223372036854775808 ≤ asI64 x ∧ asI64 x ≤ 9223372036854775807 := by
  rw [asI64_eq]
  omega

variable {v : EReal} {n : ℤ}

theorem asI64_le (h : Denotes x v) (hv : v ≤ ((n : ℝ) : EReal)) (hn : -9223372036854775808 ≤ n) :
    asI64 x ≤ n := by
  rw [asI64_eq]
  rw [Denotes] at h
  cases hx : x.toModel.unpack with
  | notANumber =>
    rw [hx] at h
    cases h
  | infinity s =>
    rw [hx] at h
    cases s
    · change max (-9223372036854775808) (min 9223372036854775807 (-9223372036854775808)) ≤ n
      omega
    · obtain rfl := Option.some.inj h
      exact absurd (top_le_iff.mp hv) (EReal.coe_ne_top _)
  | zero s =>
    rw [hx] at h
    obtain rfl := Option.some.inj h
    have hzero : (0 : ℤ) ≤ n := by exact_mod_cast hv
    change max (-9223372036854775808) (min 9223372036854775807 0) ≤ n
    omega
  | finite s m e hm =>
    rw [hx] at h
    obtain rfl := Option.some.inj h
    have hw := (whole_roundToInt s m e).upper n (EReal.coe_le_coe_iff.mp hv)
    change max (-9223372036854775808) (min 9223372036854775807 (roundToInt s m e)) ≤ n
    omega

theorem le_asI64 (h : Denotes x v) (hv : ((n : ℝ) : EReal) ≤ v) (hn : n ≤ 9223372036854775807) :
    n ≤ asI64 x := by
  rw [asI64_eq]
  rw [Denotes] at h
  cases hx : x.toModel.unpack with
  | notANumber =>
    rw [hx] at h
    cases h
  | infinity s =>
    rw [hx] at h
    cases s
    · obtain rfl := Option.some.inj h
      exact absurd (le_bot_iff.mp hv) (EReal.coe_ne_bot _)
    · change n ≤ max (-9223372036854775808) (min 9223372036854775807 9223372036854775807)
      omega
  | zero s =>
    rw [hx] at h
    obtain rfl := Option.some.inj h
    have hzero : n ≤ 0 := by exact_mod_cast hv
    change n ≤ max (-9223372036854775808) (min 9223372036854775807 0)
    omega
  | finite s m e hm =>
    rw [hx] at h
    obtain rfl := Option.some.inj h
    have hw := (whole_roundToInt s m e).lower n (EReal.coe_le_coe_iff.mp hv)
    change n ≤ max (-9223372036854775808) (min 9223372036854775807 (roundToInt s m e))
    omega

end Cast

section Reals

variable {q : ℝ} {v : EReal} {a b : ℝ}

theorem RoundsTo.between (h : RoundsTo q v) (ha : Grid a) (hb : Grid b)
    (haq : a ≤ q) (hqb : q ≤ b) :
    ∃ r : ℝ, v = r ∧ a ≤ r ∧ r ≤ b := by
  have hlo := h.lower ha haq
  have hhi := h.upper hb hqb
  induction v using EReal.rec with
  | bot => exact absurd (le_bot_iff.mp hlo) (EReal.coe_ne_bot a)
  | coe r => exact ⟨r, rfl, EReal.coe_le_coe_iff.mp hlo, EReal.coe_le_coe_iff.mp hhi⟩
  | top => exact absurd (top_le_iff.mp hhi) (EReal.coe_ne_top b)

theorem asF64_exact {n : ℤ} (h : |n| ≤ 2 ^ 53) : Denotes (asF64 n) (n : ℝ) := by
  obtain ⟨v, hv, hround⟩ := denotes_asF64 n
  rwa [hround.eq_of_grid (grid_int h)] at hv

theorem grid_around {n : ℤ} (h0 : 0 ≤ n) (h : n ≤ 18446744073709551616) :
    ∃ g g' : ℝ, Grid g ∧ Grid g' ∧ 0 ≤ g ∧ g ≤ n ∧ n ≤ g' ∧ 9 * g' ≤ 10 * g := by
  by_cases hsmall : n ≤ 2 ^ 53
  · have hgrid : Grid n := grid_int (by rwa [abs_of_nonneg h0])
    have hnonneg : (0 : ℝ) ≤ n := by exact_mod_cast h0
    exact ⟨n, n, hgrid, hgrid, hnonneg, le_rfl, le_rfl, by linarith⟩
  · have hsplit := Int.emod_add_mul_ediv n 4096
    have hmod := Int.emod_nonneg n (show (4096 : ℤ) ≠ 0 by decide)
    have hlt := Int.emod_lt_of_pos n (show (0 : ℤ) < 4096 by decide)
    generalize n / 4096 = k at hsplit
    have hgrid {j : ℤ} (h0 : 0 ≤ j) (hj : j ≤ 2 ^ 53) : Grid (j * 4096 : ℤ) := by
      refine ⟨j, 12, by rwa [abs_of_nonneg h0], by norm_num, by norm_num, ?_⟩
      push_cast
      norm_num
    refine ⟨(k * 4096 : ℤ), ((k + 1) * 4096 : ℤ), hgrid (by omega) (by omega),
      hgrid (by omega) (by omega), ?_, ?_, ?_, ?_⟩
    · exact_mod_cast (by omega : (0 : ℤ) ≤ k * 4096)
    · exact_mod_cast (by omega : k * 4096 ≤ n)
    · exact_mod_cast (by omega : n ≤ (k + 1) * 4096)
    · exact_mod_cast (by omega : 9 * ((k + 1) * 4096) ≤ 10 * (k * 4096))

end Reals

section Whole

theorem denotes_neg {a : ℝ} (h : Denotes x a) : Denotes (-x) ((-a : ℝ) : EReal) := by
  have hunpack : (-x).toModel.unpack = (Float.Model.pack x.toModel.unpack.neg).unpack := rfl
  rw [Denotes, hunpack]
  rcases denotes_real h with ⟨⟨s, hs⟩, rfl⟩ | ⟨s, m, e, hm, hs, rfl⟩
  · rw [hs, neg_zero]
    exact value_zero (-s)
  · rw [hs]
    change value (Float.Model.pack (.finite (-s) m e hm)).unpack = _
    rw [(canonical_of_unpack hs).unpack_pack]
    change some ((real (-s) m e : ℝ) : EReal) = _
    congr 2
    cases s
    · rw [real_negative, neg_neg]
      rfl
    · exact real_negative m e

theorem denotes_toWhole {f : Sign → ℕ → ℕ → ℕ} {v : ℝ}
    (hf : ∀ s a b, 0 < b → a / b ≤ f s a b ∧ f s a b ≤ (a + b - 1) / b) (h : Denotes x v) :
    ∃ w : ℤ, Denotes (toWhole f x) (w : ℝ) ∧ Whole v w := by
  rcases denotes_real h with ⟨⟨s, hs⟩, rfl⟩ | ⟨s, m, e, hm, hs, rfl⟩
  · refine ⟨0, ?_, by simpa using Whole.self 0⟩
    have hwhole : toWhole f x = x := by rw [toWhole, hs]
    simpa only [hwhole, Int.cast_zero] using h
  · rw [toWhole, hs]
    dsimp only
    by_cases he : 0 ≤ e
    · have hvalue : real s m e = (s.apply (m * 2 ^ e.toNat : ℕ) : ℤ) := by
        have hflat : (-e).toNat = 0 := by omega
        rw [real_quotient, hflat]
        simp
      refine ⟨s.apply (m * 2 ^ e.toNat : ℕ), ?_, by rw [hvalue]; exact Whole.self _⟩
      rwa [if_pos he, ← hvalue]
    · have hpos := Nat.two_pow_pos (-e).toNat
      obtain ⟨hlo, hhi⟩ := hf s m _ hpos
      have hshort : f s m (2 ^ (-e).toNat) ≤ m := by
        refine hhi.trans (Nat.div_le_of_le_mul ?_)
        have hprod : m + 2 ^ (-e).toNat - 1 ≤ 2 ^ (-e).toNat * m := by
          have hone := Nat.mul_le_mul (show 1 ≤ 2 ^ (-e).toNat from hpos) (show 1 ≤ m from hm)
          nlinarith [Nat.sub_add_cancel (show 1 ≤ m + 2 ^ (-e).toNat by omega)]
        exact hprod
      have hexact :
          Denotes (asF64 (f s m (2 ^ (-e).toNat))) ((f s m (2 ^ (-e).toNat) : ℤ) : ℝ) := by
        have hm53 := (canonical_of_unpack hs).short
        exact asF64_exact (by rw [abs_of_nonneg (by omega)]; omega)
      refine ⟨s.apply (f s m (2 ^ (-e).toNat)), ?_, ?_⟩
      · rw [if_neg he]
        cases s with
        | positive => exact hexact
        | negative =>
          simp only [Sign.apply]
          push_cast
          exact denotes_neg hexact
      · have hflat : e.toNat = 0 := by omega
        rw [real_quotient, hflat, Nat.pow_zero, Nat.mul_one]
        exact whole_apply s hpos hlo hhi

theorem denotes_floorF64 {v : ℝ} (h : Denotes x v) :
    ∃ w : ℤ, Denotes (floorF64 x) (w : ℝ) ∧ Whole v w := by
  refine denotes_toWhole (fun s a b hb => ?_) h
  have hle : a / b ≤ (a + b - 1) / b := Nat.div_le_div_right (by omega)
  cases s with
  | positive => exact ⟨le_rfl, hle⟩
  | negative => exact ⟨hle, le_rfl⟩

theorem denotes_ceilF64 {v : ℝ} (h : Denotes x v) :
    ∃ w : ℤ, Denotes (ceilF64 x) (w : ℝ) ∧ Whole v w := by
  refine denotes_toWhole (fun s a b hb => ?_) h
  have hle : a / b ≤ (a + b - 1) / b := Nat.div_le_div_right (by omega)
  cases s with
  | positive => exact ⟨hle, le_rfl⟩
  | negative => exact ⟨le_rfl, hle⟩

theorem denotes_roundTiesEvenF64 {v : ℝ} (h : Denotes x v) :
    ∃ w : ℤ, Denotes (roundTiesEvenF64 x) (w : ℝ) ∧ Whole v w := by
  refine denotes_toWhole (fun s a b hb => ⟨(roundHalfEven_bounds a b).1, ?_⟩) h
  refine roundHalfEven_le hb ?_
  have hsplit := Nat.div_add_mod (a + b - 1) b
  have hmod := Nat.mod_lt (a + b - 1) hb
  rw [Nat.mul_comm]
  omega

theorem asI64_scaled_le {r : Float} {ρ : ℝ} {n : ℤ} (hr : Denotes r ρ) (hρ : 0 ≤ ρ)
    (hρ' : ρ ≤ 9 / 10) (hn : InI64 n) : asI64 (floorF64 (asF64 n * r)) ≤ max n 0 := by
  obtain ⟨hmin, hmax⟩ := hn
  obtain ⟨v, hv, hround⟩ := denotes_asF64 n
  have hlow : Grid ((-9223372036854775808 : ℤ) : ℝ) :=
    ⟨-1, 63, by norm_num, by norm_num, by norm_num, by push_cast; norm_num⟩
  by_cases hneg : n ≤ 0
  · obtain ⟨a, rfl, hlo, hhi⟩ := hround.between hlow grid_zero (by exact_mod_cast hmin)
      (by exact_mod_cast hneg)
    obtain ⟨u, hu, hmul⟩ := denotes_mul hv hr
    obtain ⟨b, rfl, -, hb⟩ := hmul.between hlow grid_zero (by nlinarith) (by nlinarith)
    obtain ⟨w, hw, hwhole⟩ := denotes_floorF64 hu
    have hw0 : w ≤ 0 := hwhole.upper 0 (by simpa using hb)
    have hcast : asI64 (floorF64 (asF64 n * r)) ≤ 0 :=
      asI64_le hw (by exact_mod_cast hw0) (by decide)
    omega
  · obtain ⟨g, g', hg, hg', hg0, hgn, hng', hclose⟩ := grid_around (by omega : 0 ≤ n) (by omega)
    obtain ⟨a, rfl, hlo, hhi⟩ := hround.between hg hg' hgn hng'
    obtain ⟨u, hu, hmul⟩ := denotes_mul hv hr
    obtain ⟨b, rfl, -, hb⟩ := hmul.between grid_zero hg (by nlinarith) (by nlinarith)
    obtain ⟨w, hw, hwhole⟩ := denotes_floorF64 hu
    have hwn : w ≤ n := hwhole.upper n (hb.trans hgn)
    have hcast : asI64 (floorF64 (asF64 n * r)) ≤ n :=
      asI64_le hw (by exact_mod_cast hwn) (by omega)
    omega

/-- A tenth or more off an integer, rounded to the nearest, stays on its way to it. -/
theorem asI64_rounded_between {r : Float} {ρ : ℝ} {n : ℤ} (hr : Denotes r ρ) (hρ : 0 ≤ ρ)
    (hρ' : ρ ≤ 9 / 10) (hn : |n| ≤ 18446744073709551616) :
    min n 0 ≤ asI64 (roundTiesEvenF64 (asF64 n * r)) ∧
      asI64 (roundTiesEvenF64 (asF64 n * r)) ≤ max n 0 := by
  obtain ⟨hmin, hmax⟩ := abs_le.mp hn
  obtain ⟨v, hv, hround⟩ := denotes_asF64 n
  by_cases hneg : n ≤ 0
  · obtain ⟨g, g', hg, hg', hg0, hgn, hng', hclose⟩ := grid_around (by omega : 0 ≤ -n) (by omega)
    push_cast at hgn hng'
    obtain ⟨a, rfl, hlo, hhi⟩ := hround.between hg'.neg hg.neg (by linarith) (by linarith)
    obtain ⟨u, hu, hmul⟩ := denotes_mul hv hr
    obtain ⟨b, rfl, hb, hb'⟩ := hmul.between hg.neg grid_zero (by nlinarith) (by nlinarith)
    obtain ⟨w, hw, hwhole⟩ := denotes_roundTiesEvenF64 hu
    have hnw : n ≤ w := hwhole.lower n (by linarith)
    have hw0 : w ≤ 0 := hwhole.upper 0 (by simpa using hb')
    have hfrom : n ≤ asI64 (roundTiesEvenF64 (asF64 n * r)) :=
      le_asI64 hw (by exact_mod_cast hnw) (by omega)
    have hto : asI64 (roundTiesEvenF64 (asF64 n * r)) ≤ 0 :=
      asI64_le hw (by exact_mod_cast hw0) (by decide)
    omega
  · obtain ⟨g, g', hg, hg', hg0, hgn, hng', hclose⟩ := grid_around (by omega : 0 ≤ n) hmax
    obtain ⟨a, rfl, hlo, hhi⟩ := hround.between hg hg' hgn hng'
    obtain ⟨u, hu, hmul⟩ := denotes_mul hv hr
    obtain ⟨b, rfl, hb, hb'⟩ := hmul.between grid_zero hg (by nlinarith) (by nlinarith)
    obtain ⟨w, hw, hwhole⟩ := denotes_roundTiesEvenF64 hu
    have hw0 : 0 ≤ w := hwhole.lower 0 (by simpa using hb)
    have hwn : w ≤ n := hwhole.upper n (hb'.trans hgn)
    have hfrom : 0 ≤ asI64 (roundTiesEvenF64 (asF64 n * r)) :=
      le_asI64 hw (by exact_mod_cast hw0) (by decide)
    have hto : asI64 (roundTiesEvenF64 (asF64 n * r)) ≤ n :=
      asI64_le hw (by exact_mod_cast hwn) (by omega)
    omega

end Whole

end Binary64
