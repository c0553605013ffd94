import RevenueOps.Binary64Sums
import RevenueOps.PidController

/-! The range of the multiplier: what the terms of a controller with finite fields are as numbers,
and when their sum is one. -/
namespace Pid

open Arithmetic Binary64 RustFloat RustNumber

section Numbers

theorem denotes_one : Denotes 1.0 (1 : ℝ) := by
  have hunpack :
      (1.0 : Float).toModel.unpack = .finite .positive 4503599627370496 (-52) (by decide) := rfl
  exact denotes_positive hunpack (by rw [zpow_neg]; norm_num)

theorem denotes_two : Denotes 2.0 (2 : ℝ) := by
  have hunpack :
      (2.0 : Float).toModel.unpack = .finite .positive 4503599627370496 (-51) (by decide) := rfl
  exact denotes_positive hunpack (by rw [zpow_neg]; norm_num)

theorem denotes_nought : Denotes 0.0 (0 : ℝ) := value_zero .positive

theorem denotes_million : Denotes 1000000.0 (1000000 : ℝ) := by
  have hunpack : (1000000.0 : Float).toModel.unpack =
      .finite .positive 8589934592000000 (-33) (by decide) := rfl
  exact denotes_positive hunpack (by rw [zpow_neg]; norm_num)

theorem denotes_hour : Denotes 3600.0 (3600 : ℝ) := by
  have hunpack : (3600.0 : Float).toModel.unpack =
      .finite .positive 7916483719987200 (-41) (by decide) := rfl
  exact denotes_positive hunpack (by rw [zpow_neg]; norm_num)

theorem denotes_target {t : Float} (ht : t ∈ ([0.7, 0.3, 0.5] : List Float)) :
    ∃ a : ℝ, Denotes t a ∧ 0 ≤ a ∧ a ≤ 1 := by
  have hshare {m : ℕ} {e : ℤ} {hm : 0 < m} (h : t.toModel.unpack = .finite .positive m e hm)
      (hle : (m : ℝ) * 2 ^ e ≤ 1) : ∃ a : ℝ, Denotes t a ∧ 0 ≤ a ∧ a ≤ 1 :=
    ⟨_, denotes_finite h, (real_positive_pos hm e).le, hle⟩
  simp only [List.mem_cons, List.not_mem_nil, or_false] at ht
  rcases ht with rfl | rfl | rfl
  · have hunpack :
        (0.7 : Float).toModel.unpack = .finite .positive 6305039478318694 (-53) (by decide) := rfl
    refine hshare hunpack ?_
    rw [zpow_neg]
    norm_num
  · have hunpack :
        (0.3 : Float).toModel.unpack = .finite .positive 5404319552844595 (-54) (by decide) := rfl
    refine hshare hunpack ?_
    rw [zpow_neg]
    norm_num
  · have hunpack :
        (0.5 : Float).toModel.unpack = .finite .positive 4503599627370496 (-53) (by decide) := rfl
    refine hshare hunpack ?_
    rw [zpow_neg]
    norm_num

theorem denotes_half : Denotes 0.5 (4503599627370496 * 2 ^ (-53 : ℤ) : ℝ) := by
  have hunpack :
      (0.5 : Float).toModel.unpack = .finite .positive 4503599627370496 (-53) (by decide) := rfl
  exact denotes_finite hunpack

/-- The shares of the new error and of the old average are the doubles below three and seven
tenths. -/
theorem denotes_newShare : Denotes 0.3 (5404319552844595 * 2 ^ (-54 : ℤ) : ℝ) := by
  have hunpack :
      (0.3 : Float).toModel.unpack = .finite .positive 5404319552844595 (-54) (by decide) := rfl
  exact denotes_finite hunpack

theorem denotes_oldShare : Denotes (1.0 - 0.3) (6305039478318694 * 2 ^ (-53 : ℤ) : ℝ) := by
  have hunpack : (1.0 - 0.3 : Float).toModel.unpack =
      .finite .positive 6305039478318694 (-53) (by decide) := rfl
  exact denotes_finite hunpack

theorem targetRatio_mem (flowState : String) :
    (targetRatio flowState : Float) ∈ ([0.7, 0.3, 0.5] : List Float) := by
  have hlookup : ∀ (l : List (String × Float)), (∀ e ∈ l, e.2 ∈ ([0.7, 0.3, 0.5] : List Float)) →
      (l.lookup flowState).getD 0.5 ∈ ([0.7, 0.3, 0.5] : List Float) := by
    intro l
    induction l with
    | nil =>
      intro _
      simp
    | cons e l ih =>
      intro hall
      rw [List.lookup_cons]
      split
      · exact hall e List.mem_cons_self
      · exact ih fun e' he' => hall e' (List.mem_cons_of_mem _ he')
  refine hlookup pidTargetRatios fun e he => ?_
  simp only [pidTargetRatios, List.mem_cons, List.not_mem_nil, or_false] at he
  rcases he with rfl | rfl | rfl | rfl | rfl | rfl | rfl <;> simp

theorem clamp_eq {x lo hi : Float} (h : lo ≤ hi) :
    clamp x lo hi = some (clampF64 x lo hi) := if_pos h

/-- A clamp between finite bounds that are in order is a number between them. -/
theorem denotes_clampF64 {x lo hi : Float} {v : EReal} {l h : ℝ} (hx : Denotes x v)
    (hlo : Denotes lo l) (hhi : Denotes hi h) (hle : l ≤ h) :
    ∃ r : ℝ, Denotes (clampF64 x lo hi) r ∧ l ≤ r ∧ r ≤ h := by
  rw [clampF64]
  split
  · exact ⟨l, hlo, le_rfl, hle⟩
  · rename_i hlow
    have hlv := not_lt.mp (mt (lt_iff hx hlo).mpr hlow)
    split
    · exact ⟨h, hhi, hle, le_rfl⟩
    · rename_i hhigh
      have hvh := not_lt.mp (mt (lt_iff hhi hx).mpr hhigh)
      induction v using EReal.rec with
      | bot => exact absurd (le_bot_iff.mp hlv) (EReal.coe_ne_bot _)
      | coe r => exact ⟨r, hx, EReal.coe_le_coe_iff.mp hlv, EReal.coe_le_coe_iff.mp hvh⟩
      | top => exact absurd (top_le_iff.mp hvh) (EReal.coe_ne_top _)

end Numbers

section Error

/-- Whether an operation with one of the largest doubles stays finite is a matter of evaluation. -/
theorem largest_checked :
    ([0.7, 0.3, 0.5] : List Float).all (fun t =>
        (t - largest .positive).isFinite && (t - largest .negative).isFinite) = true ∧
      (0.3 * largest .positive).abs ≤
        Float.ofModel (.pack (.finite .positive 5404319552844594 970 (by decide))) ∧
      (0.3 * largest .negative).abs ≤
        Float.ofModel (.pack (.finite .positive 5404319552844594 970 (by decide))) := by
  decide +kernel

theorem denotes_rawError (ratio : Float) (flowState : String) :
    ∃ e : ℝ, Denotes (rawError ratio flowState) e := by
  have ht := targetRatio_mem flowState
  obtain ⟨a, ha, hlow, hhigh⟩ := denotes_target ht
  rw [rawError]
  split
  · rename_i hfin
    obtain ⟨r, hr⟩ := isFinite_iff.mp hfin
    rcases largest_or_below hr with ⟨s, hs⟩ | hbelow
    · have hsame : (targetRatio flowState - ratio).toModel.unpack =
          (targetRatio flowState - largest s).toModel.unpack :=
        congrArg (fun u => (Float.Model.pack (Float.Model.UnpackedFloat.sub
          Float.Model.Format.binary64 (targetRatio flowState : Float).toModel.unpack u)).unpack) hs
      have hchecked := List.all_eq_true.mp largest_checked.1 _ ht
      rw [Bool.and_eq_true] at hchecked
      have hfin' : (targetRatio flowState - largest s).isFinite = true := by
        cases s
        · exact hchecked.2
        · exact hchecked.1
      obtain ⟨e, he⟩ := isFinite_iff.mp hfin'
      exact ⟨e, by rwa [Denotes, hsame]⟩
    · obtain ⟨e, he, -⟩ := (rounds_sub ha hr).bounded double_largest (by
        rw [abs_le] at hbelow ⊢
        have hunit : (1 : ℝ) ≤ 2 ^ (971 : ℤ) := one_le_zpow₀ one_le_two (by norm_num)
        generalize (2 : ℝ) ^ (971 : ℤ) = u at *
        constructor
        · linarith
        · linarith)
      exact ⟨e, he⟩
  · obtain ⟨e, he, -⟩ := (rounds_sub ha ha).bounded double_zero (by rw [sub_self, abs_zero])
    exact ⟨e, he⟩

theorem denotes_newPart {x : Float} {e : ℝ} (hx : Denotes x e) :
    ∃ r : ℝ, Denotes (0.3 * x) r ∧ |r| ≤ |e| ∧ |r| ≤ 5404319552844594 * 2 ^ (970 : ℤ) := by
  have hpart := denotes_newShare
  have hunit : (2 : ℝ) ^ (-54 : ℤ) = 1 / 18014398509481984 := by norm_num [zpow_neg]
  rw [hunit] at hpart
  have hmul := rounds_mul hpart hx
  have hshrunk : |5404319552844595 * (1 / 18014398509481984) * e| ≤ |e| := by
    rw [abs_mul, abs_of_pos (by norm_num)]
    linarith [abs_nonneg e]
  obtain ⟨r, hr, hre⟩ := hmul.bounded (double_of_denotes hx).magnitude hshrunk
  refine ⟨r, hr, hre, ?_⟩
  rcases largest_or_below hx with ⟨s, hs⟩ | hbelow
  · have hsame : (0.3 * x).toModel.unpack = (0.3 * largest s).toModel.unpack :=
      congrArg (fun u => (Float.Model.pack (Float.Model.UnpackedFloat.mul
        Float.Model.Format.binary64 (0.3 : Float).toModel.unpack u)).unpack) hs
    have hr' : Denotes (0.3 * largest s) r := by rwa [Denotes, ← hsame]
    have hbound :
        Denotes (Float.ofModel (.pack (.finite .positive 5404319552844594 970 (by decide))))
        (5404319552844594 * 2 ^ (970 : ℤ) : ℝ) := by
      have h := Canonical.unpack_pack (m := 5404319552844594) (e := 970)
        ⟨by norm_num, by norm_num, by norm_num, by norm_num⟩ .positive (by decide)
      exact denotes_finite h
    have hle := (le_iff (denotes_abs hr') hbound).mp (by
      cases s
      · exact largest_checked.2.2
      · exact largest_checked.2.1)
    exact_mod_cast hle
  · have hdouble : Double (5404319552844594 * 2 ^ (970 : ℤ)) :=
      ⟨5404319552844594, 970, by norm_num, by norm_num, by norm_num, by norm_num⟩
    obtain ⟨r', hr', hle⟩ := hmul.bounded hdouble (by
      have hstep : (2 : ℝ) ^ (971 : ℤ) = 2 ^ (970 : ℤ) * 2 := by
        rw [← zpow_add_one₀ two_ne_zero]
        norm_num
      rw [hstep] at hbelow
      have hpos : (0 : ℝ) < 2 ^ (970 : ℤ) := zpow_pos two_pos _
      rw [abs_mul, abs_of_pos (by norm_num)]
      clear hstep
      generalize (2 : ℝ) ^ (970 : ℤ) = u at *
      generalize |e| = a at *
      linarith only [hbelow, hpos])
    rwa [EReal.coe_eq_coe_iff.mp (hr.unique hr')]

theorem denotes_oldPart {x : Float} {e : ℝ} (hx : Denotes x e) :
    ∃ r : ℝ, Denotes ((1.0 - 0.3) * x) r ∧ |r| ≤ |e| ∧ |r| ≤ 6305039478318694 * 2 ^ (971 : ℤ) := by
  have hpart := denotes_oldShare
  have hunit : (2 : ℝ) ^ (-53 : ℤ) = 1 / 9007199254740992 := by norm_num [zpow_neg]
  rw [hunit] at hpart
  have hmul := rounds_mul hpart hx
  have hshrunk : |6305039478318694 * (1 / 9007199254740992) * e| ≤ |e| := by
    rw [abs_mul, abs_of_pos (by norm_num)]
    linarith [abs_nonneg e]
  obtain ⟨r, hr, hre⟩ := hmul.bounded (double_of_denotes hx).magnitude hshrunk
  have hdouble : Double (6305039478318694 * 2 ^ (971 : ℤ)) :=
    ⟨6305039478318694, 971, by norm_num, by norm_num, by norm_num, by norm_num⟩
  obtain ⟨r', hr', hle⟩ := hmul.bounded hdouble (by
    have hbelow := (double_of_denotes hx).bounded
    have hpos : (0 : ℝ) < 2 ^ (971 : ℤ) := zpow_pos two_pos _
    generalize (2 : ℝ) ^ (971 : ℤ) = u at *
    rw [abs_mul, abs_of_pos (by norm_num)]
    linarith)
  exact ⟨r, hr, hre, by rwa [EReal.coe_eq_coe_iff.mp (hr.unique hr')]⟩

theorem denotes_average {x y : Float} {e w : ℝ} (hx : Denotes x e) (hy : Denotes y w) :
    ∃ r : ℝ, Denotes (0.3 * x + (1.0 - 0.3) * y) r ∧ |r| ≤ 2 * max |e| |w| := by
  obtain ⟨p, hp, hpe, hptop⟩ := denotes_newPart hx
  obtain ⟨q, hq, hqw, hqtop⟩ := denotes_oldPart hy
  have hsum := rounds_add hp hq
  have htriangle := abs_add_le p q
  obtain ⟨r, hr, hle⟩ := hsum.bounded double_largest (by
    have hstep : (2 : ℝ) ^ (971 : ℤ) = 2 ^ (970 : ℤ) * 2 := by
      rw [← zpow_add_one₀ two_ne_zero]
      norm_num
    rw [hstep] at hqtop ⊢
    generalize (2 : ℝ) ^ (970 : ℤ) = u at *
    linarith)
  refine ⟨r, hr, ?_⟩
  have hparts : |p + q| ≤ 2 * max |e| |w| := by
    linarith [le_max_left |e| |w|, le_max_right |e| |w|]
  rcases le_total (2 * max |e| |w|) (9007199254740991 * 2 ^ (971 : ℤ)) with hsmall | hlarge
  · have hmax : Double (max |e| |w|) := by
      rcases max_choice |e| |w| with h | h
      · rw [h]
        exact (double_of_denotes hx).magnitude
      · rw [h]
        exact (double_of_denotes hy).magnitude
    obtain ⟨r', hr', hle'⟩ :=
      hsum.bounded (hmax.twice hsmall ((abs_nonneg e).trans (le_max_left _ _))) hparts
    rwa [EReal.coe_eq_coe_iff.mp (hr.unique hr')]
  · exact hle.trans hlarge

end Error

section Scale

theorem two_le_size {capacity : ℤ} (hfits : InI64 capacity) :
    (2.0 : Float) ≤ F64.ofInt (max capacity 1) / 1000000.0 + 2.0 := by
  have hn : 1 ≤ max capacity 1 := le_max_right _ _
  have hn' : max capacity 1 ≤ 9223372036854775808 := by
    obtain ⟨-, hhigh⟩ := hfits
    omega
  have hsize : Double (9223372036854775808 : ℝ) :=
    ⟨1, 63, by norm_num, by norm_num, by norm_num, by norm_num⟩
  have hsum : Double (9223372036854775808 * 2 : ℝ) :=
    ⟨1, 64, by norm_num, by norm_num, by norm_num, by norm_num⟩
  have htwo : Double 2 := double_of_denotes denotes_two
  have hnR : (0 : ℝ) ≤ (max capacity 1 : ℤ) := by exact_mod_cast (by omega : 0 ≤ max capacity 1)
  have hnR' : ((max capacity 1 : ℤ) : ℝ) ≤ 9223372036854775808 := by exact_mod_cast hn'
  obtain ⟨a, ha, hlow, hhigh⟩ := (rounds_asF64 (max capacity 1)).between double_zero hsize hnR hnR'
  obtain ⟨b, hb, hlow', hhigh'⟩ := (rounds_div ha denotes_million (by norm_num)).between double_zero
    hsize (by positivity) (by linarith)
  obtain ⟨c, hc, hlow'', -⟩ := (rounds_add hb denotes_two).between htwo hsum (by linarith)
    (by linarith)
  exact (le_iff denotes_two hc).mpr (by exact_mod_cast hlow'')

theorem denotes_gain {x y : Float} {k σ : ℝ} (hx : Denotes x k) (hy : Denotes y σ) (hlow : 0 ≤ σ)
    (hhigh : σ ≤ 1) : ∃ r : ℝ, Denotes (x * y) r ∧ |r| ≤ |k| := by
  refine (rounds_mul hx hy).bounded (double_of_denotes hx).magnitude ?_
  rw [abs_mul, abs_of_nonneg hlow]
  exact mul_le_of_le_one_right (abs_nonneg k) hhigh

/-- The hours since the last update are finite and not negative. -/
theorem denotes_elapsed {s : PidState Float} {now : ℤ} {dt : Float} (h : elapsed s now = some dt) :
    ∃ d : ℝ, Denotes dt d ∧ 0 ≤ d := by
  rw [elapsed] at h
  split at h
  · cases h
    exact ⟨0, denotes_nought, le_rfl⟩
  · obtain ⟨d, hd, rfl⟩ := Option.map_eq_some_iff.mp h
    obtain ⟨⟨hlow, hhigh⟩, rfl⟩ := i64?_eq_some.mp hd
    have hsize : Double (9223372036854775808 : ℝ) :=
      ⟨1, 63, by norm_num, by norm_num, by norm_num, by norm_num⟩
    have hlowR : (-9223372036854775808 : ℝ) ≤ (now - s.lastUpdateTime : ℤ) := by exact_mod_cast hlow
    have hhighR : ((now - s.lastUpdateTime : ℤ) : ℝ) ≤ 9223372036854775808 := by
      exact_mod_cast hhigh.trans (by norm_num)
    obtain ⟨a, ha, hlo, hhi⟩ := (rounds_asF64 _).between hsize.neg hsize hlowR hhighR
    obtain ⟨b, hb, -⟩ := (rounds_div ha denotes_hour (by norm_num)).bounded hsize (by
      rw [abs_le]
      constructor <;> linarith)
    refine ⟨max b 0, ?_, le_max_right _ _⟩
    have hmax := denotes_maxF64 hb denotes_nought
    rwa [← EReal.coe_strictMono.monotone.map_max] at hmax

variable [Logarithms Float]

theorem denotes_scaleOf (hlog : ∀ x : Float, 2.0 ≤ x → 1.0 ≤ Logarithms.log2 x) {capacity : ℤ}
    (hfits : InI64 capacity) :
    ∃ σ : ℝ, Denotes (scaleOf capacity : Float) σ ∧ 0 ≤ σ ∧ σ ≤ 1 := by
  have hle := hlog _ (two_le_size hfits)
  obtain ⟨w, hw⟩ := denotes_of_not_isNaN (isNaN_of_le hle)
  have hone := (le_iff denotes_one hw).mp hle
  rw [scaleOf]
  induction w using EReal.rec with
  | bot => exact absurd (le_bot_iff.mp hone) (EReal.coe_ne_bot _)
  | coe l =>
    have hl : 1 ≤ l := EReal.coe_le_coe_iff.mp hone
    exact (rounds_div denotes_one hw (by linarith)).between double_zero
      (double_of_denotes denotes_one) (by positivity) (by rw [div_le_one₀ (by linarith)]; exact hl)
  | top => exact ⟨0, denotes_div_top denotes_one hw, le_rfl, zero_le_one⟩

end Scale

section Fields

variable {s : PidState Float} {dt : Float} {now : ℤ}

/-- f64::MAX. -/
def f64Max : Float := largest .positive

structure FiniteFields (s : PidState Float) : Prop where
  kp : s.kp.isFinite = true
  ki : s.ki.isFinite = true
  ewmaError : s.ewmaError.isFinite = true
  integralError : s.integralError.isFinite = true
  integralClamp : s.integralClamp.isFinite = true

def Bounded (s : PidState Float) (ratio : Float) (flowState : String) : Prop :=
  s.kp.abs * maxF64 (rawError ratio flowState).abs s.ewmaError.abs < 0.5 * f64Max ∨
    s.ki.abs * maxF64 s.integralError.abs s.integralClamp < f64Max

def newAverage (s : PidState Float) (ratio : Float) (flowState : String) : Float :=
  0.3 * rawError ratio flowState + (1.0 - 0.3) * s.ewmaError

def advanced (s : PidState Float) (ratio : Float) (flowState : String) (now : ℤ)
    (integralError : Float) : PidState Float :=
  { s with
    ewmaError := newAverage s ratio flowState
    integralError := integralError
    prevEwmaError := newAverage s ratio flowState
    lastUpdateTime := now }

theorem accumulated_of_ordered (average : Float)
    (h : 0.0 < dt → -s.integralClamp ≤ s.integralClamp) :
    ∃ integralError, accumulated s average dt = some integralError := by
  rw [accumulated]
  split
  · rename_i hpos
    exact ⟨_, clamp_eq (h hpos)⟩
  · exact ⟨_, rfl⟩

/-- The integral of finite fields stays finite, within the larger of itself and its bound. -/
theorem denotes_accumulated {average integralError : Float} {w i c : ℝ}
    (hdt : elapsed s now = some dt) (haverage : Denotes average w) (hi : Denotes s.integralError i)
    (hc : Denotes s.integralClamp c) (h : accumulated s average dt = some integralError) :
    ∃ r : ℝ, Denotes integralError r ∧ |r| ≤ max |i| c := by
  rw [accumulated] at h
  split at h
  · rw [clamp] at h
    split at h
    · rename_i hle
      cases h
      have hordered : -c ≤ c := by
        have := (le_iff (denotes_neg hc) hc).mp hle
        exact EReal.coe_le_coe_iff.mp this
      obtain ⟨d, hd, -⟩ := denotes_elapsed hdt
      obtain ⟨v, hv, -⟩ := rounds_mul haverage hd
      obtain ⟨u, hu⟩ := denotes_add hi hv (.inl ⟨i, rfl⟩)
      obtain ⟨r, hr, hlow, hhigh⟩ := denotes_clampF64 hu (denotes_neg hc) hc hordered
      exact ⟨r, hr, (abs_le.mpr ⟨hlow, hhigh⟩).trans (le_max_right _ _)⟩
    · cases h
  · cases h
    exact ⟨i, hi, le_max_left _ _⟩

theorem product_lt {x y z : Float} {a b l : ℝ} (hx : Denotes x a) (hy : Denotes y b)
    (hz : Denotes z l) (h : x.abs * y < z) : |a| * b < l := by
  obtain ⟨v, hv, hround⟩ := rounds_mul (denotes_abs hx) hy
  by_contra hle
  have hlow := hround.lower (double_of_denotes hz) (not_lt.mp hle)
  exact absurd ((lt_iff hv hz).mp h) (not_lt.mpr hlow)

theorem denotes_maxAbs {x y : Float} {a b : ℝ} (hx : Denotes x a) (hy : Denotes y b) :
    Denotes (maxF64 x y) (max a b : ℝ) := by
  have hmax := denotes_maxF64 hx hy
  rwa [← EReal.coe_strictMono.monotone.map_max] at hmax

theorem denotes_f64Max : Denotes f64Max (9007199254740991 * 2 ^ (971 : ℤ) : ℝ) := denotes_largest

theorem denotes_halfMax : Denotes (0.5 * f64Max) (9007199254740991 * 2 ^ (970 : ℤ) : ℝ) := by
  have hexact : (4503599627370496 * 2 ^ (-53 : ℤ) * (9007199254740991 * 2 ^ (971 : ℤ)) : ℝ) =
      9007199254740991 * 2 ^ (970 : ℤ) := by
    have hstep : (2 : ℝ) ^ (971 : ℤ) = 2 ^ (970 : ℤ) * 2 := by
      rw [← zpow_add_one₀ two_ne_zero]
      norm_num
    have hunit : (2 : ℝ) ^ (-53 : ℤ) = 1 / 9007199254740992 := by norm_num [zpow_neg]
    rw [hstep, hunit]
    generalize (2 : ℝ) ^ (970 : ℤ) = u
    ring
  have hdouble : Double (9007199254740991 * 2 ^ (970 : ℤ)) :=
    ⟨9007199254740991, 970, by norm_num, by norm_num, by norm_num, by norm_num⟩
  have hmul := rounds_mul denotes_half denotes_f64Max
  rw [hexact] at hmul
  obtain ⟨r, hr, hlow, hhigh⟩ := hmul.between hdouble hdouble le_rfl le_rfl
  rwa [le_antisymm hhigh hlow] at hr

end Fields

section Power

variable [Logarithms Float] {s : PidState Float} {ratio dt : Float} {capacity now : ℤ}
  {flowState : String}

def powerOf (s : PidState Float) (ratio : Float) (capacity : ℤ) (flowState : String)
    (integralError : Float) : Float :=
  s.kp * scaleOf capacity * newAverage s ratio flowState + s.ki * scaleOf capacity * integralError +
    0.0

theorem powerOf_isNumber (hlog : ∀ x : Float, 2.0 ≤ x → 1.0 ≤ Logarithms.log2 x)
    (hcapacity : InI64 capacity) (hfin : FiniteFields s) (hbounded : Bounded s ratio flowState)
    {integralError : Float} (hdt : elapsed s now = some dt)
    (hintegral : accumulated s (newAverage s ratio flowState) dt = some integralError) :
    (powerOf s ratio capacity flowState integralError).isNaN = false := by
  obtain ⟨e, he⟩ := denotes_rawError ratio flowState
  obtain ⟨kp, hkp⟩ := isFinite_iff.mp hfin.kp
  obtain ⟨ki, hki⟩ := isFinite_iff.mp hfin.ki
  obtain ⟨w, hw⟩ := isFinite_iff.mp hfin.ewmaError
  obtain ⟨i, hi⟩ := isFinite_iff.mp hfin.integralError
  obtain ⟨c, hc⟩ := isFinite_iff.mp hfin.integralClamp
  obtain ⟨r, hr, hrmax⟩ := denotes_average he hw
  obtain ⟨j, hj, hjmax⟩ := denotes_accumulated hdt hr hi hc hintegral
  obtain ⟨σ, hσ, hlow, hhigh⟩ := denotes_scaleOf hlog hcapacity
  obtain ⟨gp, hgp, hgpmax⟩ := denotes_gain hkp hσ hlow hhigh
  obtain ⟨gi, hgi, hgimax⟩ := denotes_gain hki hσ hlow hhigh
  have hp := rounds_mul hgp hr
  have hq := rounds_mul hgi hj
  have hterms : ∃ u, Denotes (s.kp * scaleOf capacity * newAverage s ratio flowState +
      s.ki * scaleOf capacity * integralError) u := by
    rcases hbounded with hprop | hint
    · have hexact := product_lt hkp (denotes_maxAbs (denotes_abs he) (denotes_abs hw))
        denotes_halfMax hprop
      obtain ⟨p, hp', -⟩ := hp.bounded double_largest (by
        have hstep : (2 : ℝ) ^ (971 : ℤ) = 2 ^ (970 : ℤ) * 2 := by
          rw [← zpow_add_one₀ two_ne_zero]
          norm_num
        have hprod : |gp| * |r| ≤ |kp| * (2 * max |e| |w|) := by gcongr
        rw [abs_mul, hstep]
        generalize (2 : ℝ) ^ (970 : ℤ) = u at *
        linarith)
      obtain ⟨q, hq', -⟩ := hq
      exact denotes_add hp' hq' (.inl ⟨p, rfl⟩)
    · have hexact := product_lt hki (denotes_maxAbs (denotes_abs hi) hc) denotes_f64Max hint
      obtain ⟨q, hq', -⟩ := hq.bounded double_largest (by
        have hprod : |gi| * |j| ≤ |ki| * max |i| c := by gcongr
        rw [abs_mul]
        linarith)
      obtain ⟨p, hp', -⟩ := hp
      exact denotes_add hp' hq' (.inr ⟨q, rfl⟩)
  obtain ⟨u, hu⟩ := hterms
  obtain ⟨t, ht⟩ := denotes_add hu denotes_nought (.inr ⟨0, rfl⟩)
  exact ht.isNaN

end Power

section Range

variable [F64Functions Float] [Logarithms Float] {s s' : PidState Float} {ratio dt m : Float}
  {capacity now : ℤ} {flowState : String}

theorem calculateMultiplier_eq {integralError : Float} (hdt : elapsed s now = some dt)
    (hintegral : accumulated s (newAverage s ratio flowState) dt = some integralError) :
    calculateMultiplier s ratio capacity flowState now =
      some (advanced s ratio flowState now integralError,
        clampF64 (F64Functions.powf 1.5 (powerOf s ratio capacity flowState integralError))
          0.5 2.0) := by
  change accumulated s (ewmaAlpha * rawError ratio flowState + (1.0 - ewmaAlpha) * s.ewmaError) dt =
    some integralError at hintegral
  have hbounds : (0.5 : Float) ≤ 2.0 := by decide
  rw [calculateMultiplier, hdt]
  simp only [Option.bind_eq_bind, Option.bind_some, hintegral, clamp_eq hbounds]
  rfl

theorem calculateMultiplier_cases
    (h : calculateMultiplier s ratio capacity flowState now = some (s', m)) :
    ∃ dt integralError, elapsed s now = some dt ∧
      accumulated s (newAverage s ratio flowState) dt = some integralError ∧
      s' = advanced s ratio flowState now integralError ∧
      m = clampF64
        (F64Functions.powf 1.5 (powerOf s ratio capacity flowState integralError)) 0.5 2.0 := by
  cases hdt : elapsed s now with
  | none =>
    rw [calculateMultiplier, hdt] at h
    cases h
  | some dt =>
    cases hintegral : accumulated s (newAverage s ratio flowState) dt with
    | none =>
      change accumulated s (ewmaAlpha * rawError ratio flowState + (1.0 - ewmaAlpha) * s.ewmaError)
        dt = none at hintegral
      rw [calculateMultiplier, hdt] at h
      simp only [Option.bind_eq_bind, Option.bind_some, hintegral] at h
      cases h
    | some integralError =>
      rw [calculateMultiplier_eq hdt hintegral] at h
      cases h
      exact ⟨dt, integralError, rfl, hintegral, rfl, rfl⟩

theorem finiteFields_advanced (hfin : FiniteFields s)
    (h : calculateMultiplier s ratio capacity flowState now = some (s', m)) : FiniteFields s' := by
  obtain ⟨dt, integralError, hdt, hintegral, rfl, -⟩ := calculateMultiplier_cases h
  obtain ⟨e, he⟩ := denotes_rawError ratio flowState
  obtain ⟨w, hw⟩ := isFinite_iff.mp hfin.ewmaError
  obtain ⟨i, hi⟩ := isFinite_iff.mp hfin.integralError
  obtain ⟨c, hc⟩ := isFinite_iff.mp hfin.integralClamp
  obtain ⟨r, hr, -⟩ := denotes_average he hw
  obtain ⟨j, hj, -⟩ := denotes_accumulated hdt hr hi hc hintegral
  exact ⟨hfin.kp, hfin.ki, isFinite_iff.mpr ⟨r, hr⟩, isFinite_iff.mpr ⟨j, hj⟩, hfin.integralClamp⟩

/-- A multiplier is in its range wherever the power it comes from is a number. -/
theorem multiplier_in_range (hlog : ∀ x : Float, 2.0 ≤ x → 1.0 ≤ Logarithms.log2 x)
    (hpow : ∀ y : Float, y.isNaN = false → (F64Functions.powf 1.5 y).isNaN = false)
    (hcapacity : InI64 capacity) (hfin : FiniteFields s) (hbounded : Bounded s ratio flowState)
    (h : calculateMultiplier s ratio capacity flowState now = some (s', m)) :
    0.5 ≤ m ∧ m ≤ 2.0 := by
  obtain ⟨dt, integralError, hdt, hintegral, -, rfl⟩ := calculateMultiplier_cases h
  have hnumber := hpow _ (powerOf_isNumber hlog hcapacity hfin hbounded hdt hintegral)
  obtain ⟨v, hv⟩ := denotes_of_not_isNaN hnumber
  have hordered : (4503599627370496 * 2 ^ (-53 : ℤ) : ℝ) ≤ 2 := by norm_num [zpow_neg]
  obtain ⟨r, hr, hlow, hhigh⟩ := denotes_clampF64 hv denotes_half denotes_two hordered
  exact ⟨(le_iff denotes_half hr).mpr (by exact_mod_cast hlow), (le_iff hr denotes_two).mpr
    (by exact_mod_cast hhigh)⟩

end Range

end Pid
