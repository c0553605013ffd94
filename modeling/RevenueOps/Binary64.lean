import RevenueOps.RustFloat
import RevenueOps.RustNumber
import Mathlib.Data.EReal.Operations
import Mathlib.Algebra.Order.Field.Power
import Mathlib.Tactic.Linarith
import Mathlib.Tactic.Ring
import Mathlib.Tactic.NormNum

/-! Doubles as extended reals: packing and unpacking, rounding to nearest with ties to even, the
product of two doubles and the conversion from an integer. A rounded result is described by the
doubles around the exact one, so no error bound is needed. -/
namespace Binary64

open RustFloat RustNumber Float.Model Float.Model.UnpackedFloat

section HalfEven

variable {a b n : ℕ}

theorem roundHalfEven_bounds (a b : ℕ) :
    a / b ≤ roundHalfEven a b ∧ roundHalfEven a b ≤ a / b + 1 := by
  simp only [roundHalfEven]
  split
  · omega
  · omega

theorem le_roundHalfEven (hb : 0 < b) (h : n * b ≤ a) : n ≤ roundHalfEven a b :=
  ((Nat.le_div_iff_mul_le hb).mpr h).trans (roundHalfEven_bounds a b).1

theorem roundHalfEven_le (hb : 0 < b) (h : a ≤ n * b) : roundHalfEven a b ≤ n := by
  have hsplit := Nat.div_add_mod a b
  have hmod := Nat.mod_lt a hb
  by_cases hq : a / b < n
  · have hup := (roundHalfEven_bounds a b).2
    omega
  · -- the quotient has reached the bound, so nothing is left to round up
    have hle : b * n ≤ b * (a / b) := Nat.mul_le_mul_left b (by omega)
    have hrest : a % b = 0 := by
      rw [Nat.mul_comm n b] at h
      omega
    have hquot : a / b ≤ n := Nat.div_le_of_le_mul (by rwa [Nat.mul_comm])
    rw [roundHalfEven, hrest]
    simp only [Nat.mul_zero, hb, true_or, if_true]
    exact hquot

end HalfEven

section Shift

structure Shifted (m k : ℕ) (em : ExtendedMantissa) : Prop where
  mantissa : em.mantissa = m / 2 ^ k
  roundBit : em.roundBit = true ↔ 2 ^ k ≤ 2 * (m % 2 ^ k)
  stickyBit : em.stickyBit = true ↔ 2 * (m % 2 ^ k) % 2 ^ k ≠ 0

theorem shifted_zero (m : ℕ) : Shifted m 0 ⟨m, false, false⟩ := by
  constructor
  · exact (Nat.div_one m).symm
  · simp [Nat.mod_one]
  · simp [Nat.mod_one]

theorem Shifted.shiftRightOne {m k : ℕ} {em : ExtendedMantissa} (h : Shifted m k em) :
    Shifted m (k + 1) em.shiftRightOne := by
  have hpos := Nat.two_pow_pos k
  have hlow := Nat.mod_lt m hpos
  have hpow : 2 ^ (k + 1) = 2 ^ k * 2 := pow_succ 2 k
  have hmod : m % 2 ^ (k + 1) = m % 2 ^ k + 2 ^ k * (m / 2 ^ k % 2) := by
    rw [hpow, Nat.mod_mul]
  have hbit : m / 2 ^ k % 2 = 0 ∨ m / 2 ^ k % 2 = 1 := Nat.mod_two_eq_zero_or_one _
  constructor
  · change em.mantissa / 2 = m / 2 ^ (k + 1)
    rw [h.mantissa, Nat.div_div_eq_div_mul, hpow]
  · change (em.mantissa % 2 != 0) = true ↔ _
    rw [h.mantissa, hmod, hpow]
    rcases hbit with hbit | hbit
    · simp [hbit]
      omega
    · simp [hbit]
      omega
  · change (em.roundBit || em.stickyBit) = true ↔ _
    rw [Bool.or_eq_true, h.roundBit, h.stickyBit, hmod]
    have hrest : 2 * (m % 2 ^ k + 2 ^ k * (m / 2 ^ k % 2)) % 2 ^ (k + 1) = 2 * (m % 2 ^ k) := by
      rw [hpow, show 2 * (m % 2 ^ k + 2 ^ k * (m / 2 ^ k % 2)) =
        2 * (m % 2 ^ k) + 2 ^ k * 2 * (m / 2 ^ k % 2) by ring, Nat.add_mul_mod_self_left]
      exact Nat.mod_eq_of_lt (by omega)
    rw [hrest]
    by_cases hhalf : 2 ^ k ≤ 2 * (m % 2 ^ k)
    · simp only [hhalf, true_or, true_iff]
      omega
    · have hsmall : 2 * (m % 2 ^ k) % 2 ^ k = 2 * (m % 2 ^ k) := Nat.mod_eq_of_lt (by omega)
      rw [hsmall]
      simp only [hhalf, false_or]

theorem shifted_shiftRight (m k : ℕ) :
    Shifted m k ((⟨m, false, false⟩ : ExtendedMantissa) >>> k) := by
  induction k with
  | zero => exact shifted_zero m
  | succ k ih => exact ih.shiftRightOne

theorem Shifted.roundedMantissa {m k : ℕ} {em : ExtendedMantissa} (h : Shifted m k em) :
    em.roundedMantissa = roundHalfEven m (2 ^ k) := by
  obtain ⟨mantissa, roundBit, stickyBit⟩ := em
  obtain ⟨hm, hr, hs⟩ := h
  have hpos := Nat.two_pow_pos k
  have hlow := Nat.mod_lt m hpos
  simp only at hm hr hs
  subst hm
  cases roundBit
  · have hlt : 2 * (m % 2 ^ k) < 2 ^ k := by simpa using hr
    have hround : roundHalfEven m (2 ^ k) = m / 2 ^ k := if_pos (.inl hlt)
    rw [hround]
    cases stickyBit <;> rfl
  · have hle : 2 ^ k ≤ 2 * (m % 2 ^ k) := hr.mp rfl
    have hrest : 2 * (m % 2 ^ k) % 2 ^ k = 2 * (m % 2 ^ k) - 2 ^ k := by
      rw [Nat.mod_eq_sub_mod hle, Nat.mod_eq_of_lt (by omega)]
    cases stickyBit
    · have hzero : ¬ 2 * (m % 2 ^ k) % 2 ^ k ≠ 0 := fun hne => by simpa using hs.mpr hne
      have htie : 2 * (m % 2 ^ k) = 2 ^ k := by omega
      change m / 2 ^ k + m / 2 ^ k % 2 = _
      simp only [roundHalfEven, htie, Nat.lt_irrefl, false_or, true_and]
      split
      · omega
      · omega
    · have hne := hs.mp rfl
      have hgt : 2 ^ k < 2 * (m % 2 ^ k) := by omega
      change m / 2 ^ k + 1 = _
      rw [roundHalfEven, if_neg (by omega)]

end Shift

section Round

theorem targetExponent_eq (m : ℕ) (e : ℤ) :
    Format.binary64.targetExponent (totalExponent m e) = max (m.log2 + e - 52) (-1074) := by
  change max ((m.log2 : ℤ) + 1 + e - (52 + 1)) (-1074) = _
  omega

def excess (m : ℕ) (e : ℤ) : ℕ := (max (m.log2 + e - 52) (-1074) - e).toNat

theorem shiftToTargetExponent_exact (m : ℕ) (e : ℤ) :
    shiftToTargetExponent Format.binary64 m e .exact =
      ((⟨m, false, false⟩ : ExtendedMantissa) >>> excess m e, e + excess m e) := by
  rw [shiftToTargetExponent, targetExponent_eq]
  rfl

def carried (s : Sign) (r : ℕ) (e : ℤ) : UnpackedFloat :=
  if h : r = 0 then .zero s
  else if r < 2 ^ 53 then .finite s r e (Nat.pos_of_ne_zero h)
  else .finite s (2 ^ 52) (e + 1) (Nat.two_pow_pos 52)

theorem log2_lt_53 {m : ℕ} (h : m < 2 ^ 53) : m.log2 ≤ 52 := by
  by_cases hm : m = 0
  · simp [hm]
  · have := (Nat.log2_lt hm).mpr h
    omega

theorem excess_bounds (m : ℕ) (e : ℤ) : -1074 ≤ e + excess m e ∧ m.log2 ≤ 52 + excess m e := by
  rw [excess]
  omega

theorem lt_of_log2 (m : ℕ) : m < 2 ^ (m.log2 + 1) := Nat.lt_log2_self

theorem kept_lt (m : ℕ) (e : ℤ) : m < 2 ^ 53 * 2 ^ excess m e := by
  have hlog := (excess_bounds m e).2
  rw [← Nat.pow_add]
  exact (lt_of_log2 m).trans_le (Nat.pow_le_pow_right (by decide) (by omega))

theorem finite_or_zero_eq {s : Sign} {a b : ℕ} {e f : ℤ} (hmantissa : a = b) (hexponent : e = f) :
    (if h : a = 0 then .zero s else .finite s a e (Nat.pos_of_ne_zero h) : UnpackedFloat) =
      if h : b = 0 then .zero s else .finite s b f (Nat.pos_of_ne_zero h) := by
  subst hmantissa hexponent
  rfl

theorem shifted_again {r : ℕ} {e : ℤ} (s : Sign) (hr : r ≤ 2 ^ 53) (he : -1074 ≤ e) :
    (if h : ((⟨r, false, false⟩ : ExtendedMantissa) >>> excess r e).mantissa = 0 then .zero s
      else .finite s ((⟨r, false, false⟩ : ExtendedMantissa) >>> excess r e).mantissa
        (e + excess r e) (Nat.pos_of_ne_zero h)) = carried s r e := by
  have hmantissa := (shifted_shiftRight r (excess r e)).mantissa
  by_cases hlt : r < 2 ^ 53
  · have hlog := log2_lt_53 hlt
    have hnone : excess r e = 0 := by
      rw [excess]
      omega
    rw [hnone, Nat.pow_zero, Nat.div_one] at hmantissa
    rw [hnone, finite_or_zero_eq hmantissa (by simp : e + ((0 : ℕ) : ℤ) = e), carried]
    by_cases hzero : r = 0
    · rw [dif_pos hzero, dif_pos hzero]
    · rw [dif_neg hzero, dif_neg hzero, if_pos hlt]
  · obtain rfl : r = 2 ^ 53 := by omega
    have hlog : (2 ^ 53 : ℕ).log2 = 53 := Nat.log2_two_pow
    have hone : excess (2 ^ 53) e = 1 := by
      rw [excess, hlog]
      omega
    rw [hone] at hmantissa
    rw [hone, finite_or_zero_eq (hmantissa.trans (by decide : 2 ^ 53 / 2 ^ 1 = 2 ^ 52)) rfl,
      carried,
      dif_neg (by decide), dif_neg (by decide), if_neg hlt]
    rfl

theorem roundWithAccuracy_exact (s : Sign) (m : ℕ) (e : ℤ) :
    roundWithAccuracy Format.binary64 s m e .exact =
      carried s (roundHalfEven m (2 ^ excess m e)) (e + excess m e) := by
  have hle : roundHalfEven m (2 ^ excess m e) ≤ 2 ^ 53 :=
    roundHalfEven_le (Nat.two_pow_pos _) (kept_lt m e).le
  have hagain := shifted_again s hle (excess_bounds m e).1
  rw [roundWithAccuracy, shiftToTargetExponent_exact]
  dsimp only
  rw [(shifted_shiftRight m (excess m e)).roundedMantissa, shiftToTargetExponent_exact]
  exact hagain

end Round

section Pack

theorem unpack_pack (u : UnpackedFloat) :
    (Float.Model.pack u).unpack = UnpackedFloat.unpack Format.binary64
      (UnpackedFloat.pack Format.binary64 u) := rfl

theorem unpackSign_packComponents (s : Sign) (ex : BitVec 11) (ma : BitVec 52) :
    Sign.ofBitVec (unpackSign (packComponents Format.binary64 s ex ma)) = s := by
  have htop : (s.toBitVec ++ ex ++ ma).getLsbD 63 = s.toBitVec.getLsbD 0 := by
    rw [BitVec.getLsbD_append, if_neg (by decide), BitVec.getLsbD_append, if_neg (by decide)]
  have hbit : unpackSign (packComponents Format.binary64 s ex ma) = s.toBitVec := by
    refine BitVec.eq_of_getLsbD_eq fun i hi => ?_
    obtain rfl : i = 0 := by omega
    change ((((s.toBitVec ++ ex ++ ma).extractLsb 63 63).cast rfl : BitVec 1)).getLsbD 0 = _
    rw [BitVec.getLsbD_cast, BitVec.getLsbD_extractLsb]
    exact htop
  rw [hbit]
  cases s <;> rfl

theorem unpack_packedInfinity (s : Sign) :
    UnpackedFloat.unpack Format.binary64 (packedInfinity Format.binary64 s) = .infinity s := by
  cases s <;> rfl

theorem toNat_implicit (v : BitVec 52) : (1#1 ++ v).toNat = 2 ^ 52 + v.toNat := by
  rw [BitVec.toNat_append, ← Nat.shiftLeft_add_eq_or_of_lt v.isLt]
  rfl

structure Canonical (m : ℕ) (e : ℤ) : Prop where
  short : m < 2 ^ 53
  low : -1074 ≤ e
  high : e ≤ 971
  full : 2 ^ 52 ≤ m ∨ e = -1074

theorem log2_eq_52 {m : ℕ} (hlow : 2 ^ 52 ≤ m) (hhigh : m < 2 ^ 53) : m.log2 = 52 :=
  (Nat.log2_eq_iff (by omega)).mpr ⟨hlow, hhigh⟩

theorem pack_finite (s : Sign) {m : ℕ} (e : ℤ) (hm : 0 < m) :
    UnpackedFloat.pack Format.binary64 (.finite s m e hm) =
      if 2 ^ 11 ≤ (e + 1023 + 52).toNat + 1 then packedInfinity Format.binary64 s
      else if m.log2 + 1 = 53 then
        packComponents Format.binary64 s (BitVec.ofNat 11 (e + 1023 + 52).toNat) (BitVec.ofNat 52 m)
      else packComponents Format.binary64 s 0#11 (BitVec.ofNat 52 m) := rfl

theorem finite_eq {s : Sign} {m m' : ℕ} {e e' : ℤ} (hm : 0 < m) (hm' : 0 < m') (hmantissa : m = m')
    (hexponent : e = e') : UnpackedFloat.finite s m e hm = .finite s m' e' hm' := by
  subst hmantissa hexponent
  rfl

theorem unpack_normalComponents {b : BitVec Format.binary64.numBits} {s : Sign} {ex : BitVec 11}
    {ma : BitVec 52} (hs : Sign.ofBitVec (unpackSign b) = s) (hex : unpackExponent b = ex)
    (hma : unpackMantissa b = ma) (hinf : ex ≠ -1#11) (hsub : ex ≠ 0#11)
    (hpos : 0 < (1#1 ++ ma).toNat) :
    UnpackedFloat.unpack Format.binary64 b =
      .finite s (1#1 ++ ma).toNat (ex.toNat - (1023 + 52)) hpos := by
  subst hs hex hma
  exact (if_neg hinf).trans (if_neg hsub)

theorem unpack_subnormalComponents {b : BitVec Format.binary64.numBits} {s : Sign} {ma : BitVec 52}
    (hs : Sign.ofBitVec (unpackSign b) = s) (hex : unpackExponent b = 0#11)
    (hma : unpackMantissa b = ma) (hne : ma ≠ 0#52) (hpos : 0 < ma.toNat) :
    UnpackedFloat.unpack Format.binary64 b = .finite s ma.toNat (-1074) hpos := by
  subst hs hma
  have hinf : unpackExponent b ≠ -1#11 := by
    rw [hex]
    decide
  refine ((if_neg hinf).trans ((if_pos hex).trans (dif_neg hne))).trans ?_
  refine finite_eq _ _ rfl ?_
  rw [hex]
  rfl

theorem unpack_normal (s : Sign) {m : ℕ} {e : ℤ} (hm : 0 < m) (hlow : 2 ^ 52 ≤ m)
    (hhigh : m < 2 ^ 53) (he : -1074 ≤ e) (he' : e ≤ 971) :
    (Float.Model.pack (.finite s m e hm)).unpack = .finite s m e hm := by
  have hexp : (BitVec.ofNat 11 (e + 1023 + 52).toNat).toNat = (e + 1023 + 52).toNat := by
    rw [BitVec.toNat_ofNat]
    omega
  have hman : (1#1 ++ BitVec.ofNat 52 m).toNat = m := by
    rw [toNat_implicit, BitVec.toNat_ofNat]
    omega
  have hinf : BitVec.ofNat 11 (e + 1023 + 52).toNat ≠ -1#11 := fun h => by
    have hval := congrArg BitVec.toNat h
    rw [hexp] at hval
    change _ = 2047 at hval
    omega
  have hsub : BitVec.ofNat 11 (e + 1023 + 52).toNat ≠ 0#11 := fun h => by
    have hval := congrArg BitVec.toNat h
    rw [hexp] at hval
    change _ = 0 at hval
    omega
  rw [unpack_pack, pack_finite, if_neg (by omega), if_pos (by rw [log2_eq_52 hlow hhigh])]
  rw [unpack_normalComponents (unpackSign_packComponents _ _ _) (unpackExponent_packComponents ..)
    (unpackMantissa_packComponents ..) hinf hsub (by rw [hman]; exact hm)]
  refine finite_eq _ _ hman ?_
  rw [hexp]
  omega

theorem unpack_subnormal (s : Sign) {m : ℕ} (hm : 0 < m) (hhigh : m < 2 ^ 52) :
    (Float.Model.pack (.finite s m (-1074) hm)).unpack = .finite s m (-1074) hm := by
  have hlog : m.log2 < 52 := (Nat.log2_lt (by omega)).mpr hhigh
  have hman : (BitVec.ofNat 52 m).toNat = m := by
    rw [BitVec.toNat_ofNat]
    omega
  have hne : BitVec.ofNat 52 m ≠ 0#52 := fun h => by
    have hval := congrArg BitVec.toNat h
    rw [hman] at hval
    change _ = 0 at hval
    omega
  rw [unpack_pack, pack_finite, if_neg (by decide), if_neg (by omega)]
  rw [unpack_subnormalComponents (unpackSign_packComponents _ _ _)
    (unpackExponent_packComponents ..) (unpackMantissa_packComponents ..) hne
      (by rw [hman]; exact hm)]
  exact finite_eq _ _ hman rfl

theorem unpack_overflow (s : Sign) {m : ℕ} {e : ℤ} (hm : 0 < m) (he : 972 ≤ e) :
    (Float.Model.pack (.finite s m e hm)).unpack = .infinity s := by
  rw [unpack_pack, pack_finite, if_pos (by omega)]
  exact unpack_packedInfinity s

theorem Canonical.unpack_pack {m : ℕ} {e : ℤ} (h : Canonical m e) (s : Sign) (hm : 0 < m) :
    (Float.Model.pack (.finite s m e hm)).unpack = .finite s m e hm := by
  by_cases hlow : 2 ^ 52 ≤ m
  · exact unpack_normal s hm hlow h.short h.low h.high
  · obtain rfl := h.full.resolve_left hlow
    exact unpack_subnormal s hm (by omega)

theorem canonical_of_unpack {x : Float.Model} {s : Sign} {m : ℕ} {e : ℤ} {hm : 0 < m}
    (h : x.unpack = .finite s m e hm) : Canonical m e := by
  delta Float.Model.unpack UnpackedFloat.unpack at h
  let ma : BitVec 52 := @unpackMantissa Format.binary64 x.toBits.toBitVec
  let ex : BitVec 11 := @unpackExponent Format.binary64 x.toBits.toBitVec
  have hma : ma.toNat < 2 ^ 52 := ma.isLt
  have hex : ex.toNat < 2 ^ 11 := ex.isLt
  dsimp only at h
  by_cases hinf : ex = -1#11
  · rw [if_pos hinf] at h
    by_cases hzero : ma = 0#52
    · rw [if_pos hzero] at h
      cases h
    · rw [if_neg hzero] at h
      cases h
  · rw [if_neg hinf] at h
    have hlast : ex.toNat ≠ 2047 := fun hval => hinf (BitVec.eq_of_toNat_eq hval)
    by_cases hsub : ex = 0#11
    · rw [if_pos hsub] at h
      by_cases hzero : ma = 0#52
      · rw [dif_pos hzero] at h
        cases h
      · rw [dif_neg hzero] at h
        obtain ⟨-, rfl, hexponent⟩ := UnpackedFloat.finite.inj h
        change (ex.toNat : ℤ) - 1075 + 1 = e at hexponent
        rw [hsub] at hexponent
        change (0 : ℤ) - 1075 + 1 = e at hexponent
        change Canonical ma.toNat e
        exact ⟨by omega, by omega, by omega, .inr (by omega)⟩
    · rw [if_neg hsub] at h
      have hfirst : ex.toNat ≠ 0 := fun hval => hsub (BitVec.eq_of_toNat_eq hval)
      obtain ⟨-, rfl, hexponent⟩ := UnpackedFloat.finite.inj h
      change (ex.toNat : ℤ) - 1075 = e at hexponent
      change Canonical (1#1 ++ ma).toNat e
      rw [toNat_implicit]
      exact ⟨by omega, by omega, by omega, .inl (by omega)⟩

end Pack

section Values

noncomputable def real (s : Sign) (m : ℕ) (e : ℤ) : ℝ := (s.apply m : ℤ) * (2 : ℝ) ^ e

noncomputable def value : UnpackedFloat → Option EReal
  | .notANumber => none
  | .infinity .positive => some ⊤
  | .infinity .negative => some ⊥
  | .zero _ => some 0
  | .finite s m e _ => some (real s m e)

def Denotes (x : Float) (v : EReal) : Prop := value x.toModel.unpack = some v

def Grid (g : ℝ) : Prop := ∃ n k : ℤ, |n| ≤ 2 ^ 53 ∧ -1074 ≤ k ∧ k ≤ 970 ∧ g = n * (2 : ℝ) ^ k

/-- No grid number lies strictly between a real number and what it is rounded to. -/
structure RoundsTo (q : ℝ) (v : EReal) : Prop where
  lower : ∀ {g : ℝ}, Grid g → g ≤ q → (g : EReal) ≤ v
  upper : ∀ {g : ℝ}, Grid g → q ≤ g → v ≤ g

def Double (g : ℝ) : Prop := ∃ n k : ℤ, |n| < 2 ^ 53 ∧ -1074 ≤ k ∧ k ≤ 971 ∧ g = n * (2 : ℝ) ^ k

/-- No double lies strictly between a real number and what it is rounded to. -/
structure Faithful (q : ℝ) (v : EReal) : Prop where
  lower : ∀ {g : ℝ}, Double g → g ≤ q → (g : EReal) ≤ v
  upper : ∀ {g : ℝ}, Double g → q ≤ g → v ≤ g

def Rounds (x : Float) (q : ℝ) : Prop := ∃ v, Denotes x v ∧ Faithful q v

theorem Grid.neg {g : ℝ} (h : Grid g) : Grid (-g) := by
  obtain ⟨n, k, hn, hk, hk', rfl⟩ := h
  refine ⟨-n, k, by rwa [abs_neg], hk, hk', ?_⟩
  push_cast
  ring

theorem Double.neg {g : ℝ} (h : Double g) : Double (-g) := by
  obtain ⟨n, k, hn, hk, hk', rfl⟩ := h
  refine ⟨-n, k, by rwa [abs_neg], hk, hk', ?_⟩
  push_cast
  ring

theorem Grid.double {g : ℝ} (h : Grid g) : Double g := by
  obtain ⟨n, k, hn, hk, hk', rfl⟩ := h
  have hcarry : (2 : ℝ) ^ 53 * 2 ^ k = 2 ^ 52 * 2 ^ (k + 1) := by
    rw [zpow_add_one₀ two_ne_zero]
    ring
  rcases lt_or_eq_of_le hn with hlt | heq
  · exact ⟨n, k, hlt, hk, by omega, rfl⟩
  · rcases (abs_eq (by positivity)).mp heq with rfl | rfl
    · refine ⟨2 ^ 52, k + 1, by norm_num, by omega, by omega, ?_⟩
      push_cast
      linarith
    · refine ⟨-2 ^ 52, k + 1, by norm_num, by omega, by omega, ?_⟩
      push_cast
      linarith

theorem Double.lt {g : ℝ} (h : Double g) : g < 2 ^ (1024 : ℤ) := by
  obtain ⟨n, k, hn, -, hk, rfl⟩ := h
  have hlt : (n : ℝ) < 2 ^ (53 : ℤ) := by exact_mod_cast (le_abs_self n).trans_lt hn
  have hpow : (2 : ℝ) ^ k ≤ 2 ^ (971 : ℤ) := zpow_le_zpow_right₀ one_le_two hk
  calc (n : ℝ) * 2 ^ k < 2 ^ (53 : ℤ) * 2 ^ k := mul_lt_mul_of_pos_right hlt (by positivity)
    _ ≤ 2 ^ (53 : ℤ) * 2 ^ (971 : ℤ) := by gcongr
    _ = 2 ^ (1024 : ℤ) := by rw [← zpow_add₀ two_ne_zero]; norm_num

theorem grid_int {n : ℤ} (h : |n| ≤ 2 ^ 53) : Grid n :=
  ⟨n, 0, h, by norm_num, by norm_num, by simp⟩

theorem grid_zero : Grid 0 := by simpa using grid_int (n := 0) (by norm_num)

theorem Faithful.roundsTo {q : ℝ} {v : EReal} (h : Faithful q v) : RoundsTo q v :=
  ⟨fun hg => h.lower hg.double, fun hg => h.upper hg.double⟩

theorem RoundsTo.neg {q : ℝ} {v : EReal} (h : RoundsTo q v) : RoundsTo (-q) (-v) := by
  constructor
  · intro g hg hle
    have hflip := h.upper hg.neg (by linarith)
    rw [EReal.coe_neg] at hflip
    exact EReal.le_neg_of_le_neg hflip
  · intro g hg hle
    have hflip := h.lower hg.neg (by linarith)
    rw [EReal.coe_neg] at hflip
    exact EReal.neg_le_of_neg_le hflip

theorem RoundsTo.eq_of_grid {q : ℝ} {v : EReal} (h : RoundsTo q v) (hq : Grid q) : v = q :=
  le_antisymm (h.upper hq le_rfl) (h.lower hq le_rfl)

theorem Faithful.neg {q : ℝ} {v : EReal} (h : Faithful q v) : Faithful (-q) (-v) := by
  constructor
  · intro g hg hle
    have hflip := h.upper hg.neg (by linarith)
    rw [EReal.coe_neg] at hflip
    exact EReal.le_neg_of_le_neg hflip
  · intro g hg hle
    have hflip := h.lower hg.neg (by linarith)
    rw [EReal.coe_neg] at hflip
    exact EReal.neg_le_of_neg_le hflip

theorem Faithful.top {q v : ℝ} (h : Faithful q v) (hv : 2 ^ (1024 : ℤ) ≤ v) : Faithful q ⊤ := by
  refine ⟨fun _ _ => le_top, fun {g} hg hle => ?_⟩
  have hbound := EReal.coe_le_coe_iff.mp (h.upper hg hle)
  exact absurd (hv.trans hbound) (not_le.mpr hg.lt)

end Values

section RoundValue

/-- The rounded mantissa has all its bits, or the exponent is the lowest one. -/
theorem kept_full {m : ℕ} {e : ℤ} (hm : 0 < m) (hfine : 52 ≤ m.log2 ∨ e ≤ -1074) :
    2 ^ 52 * 2 ^ excess m e ≤ m ∨ e + excess m e = -1074 := by
  by_cases hlow : e + excess m e = -1074
  · exact .inr hlow
  · left
    have hlog : m.log2 = 52 + excess m e := by
      rw [excess] at hlow ⊢
      omega
    rw [← Nat.pow_add, ← hlog]
    exact Nat.log2_self_le (by omega)

theorem real_positive (m : ℕ) (e : ℤ) : real .positive m e = m * (2 : ℝ) ^ e := rfl

theorem denotes_finite {x : Float} {s : Sign} {m : ℕ} {e : ℤ} {hm : 0 < m}
    (h : x.toModel.unpack = .finite s m e hm) : Denotes x (real s m e : ℝ) := by
  rw [Denotes, h]
  rfl

theorem denotes_positive {x : Float} {m : ℕ} {e : ℤ} {hm : 0 < m} {q : ℝ}
    (h : x.toModel.unpack = .finite .positive m e hm) (hq : (m : ℝ) * 2 ^ e = q) : Denotes x q :=
  hq ▸ denotes_finite h

theorem real_negative (m : ℕ) (e : ℤ) : real .negative m e = -real .positive m e := by
  change ((-(m : ℤ) : ℤ) : ℝ) * _ = -(((m : ℤ) : ℝ) * _)
  push_cast
  ring

/-- A double is a multiple of a unit, or lies below the full mantissas of that unit. -/
theorem Double.multiple {g : ℝ} (h : Double g) (e : ℤ) :
    (∃ n : ℤ, g = n * (2 : ℝ) ^ e) ∨ -1074 < e ∧ g ≤ 2 ^ 52 * 2 ^ e := by
  obtain ⟨n, k, hn, hk, -, rfl⟩ := h
  by_cases hke : e ≤ k
  · left
    obtain ⟨j, rfl⟩ := Int.le.dest hke
    refine ⟨n * 2 ^ j, ?_⟩
    rw [zpow_add₀ two_ne_zero, zpow_natCast]
    push_cast
    ring
  · right
    have hle : (n : ℝ) ≤ 2 ^ 53 := by exact_mod_cast (le_abs_self n).trans hn.le
    have hstep : (2 : ℝ) ^ k ≤ 2 ^ (e - 1) := zpow_le_zpow_right₀ one_le_two (by omega)
    refine ⟨by omega, ?_⟩
    calc (n : ℝ) * 2 ^ k ≤ 2 ^ 53 * 2 ^ k := by gcongr
      _ ≤ 2 ^ 53 * 2 ^ (e - 1) := by gcongr
      _ = 2 ^ 52 * 2 ^ e := by rw [zpow_sub_one₀ two_ne_zero]; ring

theorem faithful_kept {m : ℕ} {e : ℤ} (hm : 0 < m) (hfine : 52 ≤ m.log2 ∨ e ≤ -1074) :
    Faithful (real .positive m e)
      (real .positive (roundHalfEven m (2 ^ excess m e)) (e + excess m e) : ℝ) := by
  have hfull := kept_full hm hfine
  have hpos := Nat.two_pow_pos (excess m e)
  have hscale : (2 : ℝ) ^ (e + excess m e) = 2 ^ e * 2 ^ excess m e := by
    rw [zpow_add₀ two_ne_zero, zpow_natCast]
  generalize excess m e = k at hfull hpos hscale ⊢
  have hunit : (0 : ℝ) < 2 ^ e := zpow_pos two_pos e
  have hround := @le_roundHalfEven m (2 ^ k)
  have hround' := @roundHalfEven_le m (2 ^ k)
  generalize roundHalfEven m (2 ^ k) = r at hround hround' ⊢
  rw [real_positive, real_positive]
  constructor
  · intro g hg hle
    rw [EReal.coe_le_coe_iff]
    rcases hg.multiple (e + k) with ⟨n, rfl⟩ | ⟨hlow, hbelow⟩
    · -- a multiple of the unit that is at most the quotient
      rw [hscale] at hle ⊢
      have hn : n * 2 ^ k ≤ (m : ℤ) := by
        have hreal : (n : ℝ) * 2 ^ k ≤ m := by
          refine le_of_mul_le_mul_right ?_ hunit
          linarith
        exact_mod_cast hreal
      have hnr : n ≤ (r : ℤ) := by
        by_cases hneg : n < 0
        · omega
        · lift n to ℕ using (by omega) with n'
          exact_mod_cast hround hpos (by exact_mod_cast hn)
      have hreal : (n : ℝ) ≤ r := by exact_mod_cast hnr
      gcongr
    · have hr : 2 ^ 52 ≤ r := hround hpos (hfull.resolve_right (by omega))
      have hreal : (2 : ℝ) ^ 52 ≤ r := by exact_mod_cast hr
      refine hbelow.trans ?_
      gcongr
  · intro g hg hle
    rw [EReal.coe_le_coe_iff]
    rcases hg.multiple (e + k) with ⟨n, rfl⟩ | ⟨hlow, hbelow⟩
    · rw [hscale] at hle ⊢
      have hn : (m : ℤ) ≤ n * 2 ^ k := by
        have hreal : (m : ℝ) ≤ n * 2 ^ k := by
          refine le_of_mul_le_mul_right ?_ hunit
          linarith
        exact_mod_cast hreal
      have hpow : (0 : ℤ) < 2 ^ k := by exact_mod_cast hpos
      have hnonneg : 0 ≤ n := by
        by_contra hneg
        have hprod : n * 2 ^ k ≤ 0 := mul_nonpos_of_nonpos_of_nonneg (by omega) hpow.le
        omega
      lift n to ℕ using hnonneg
      have hreal : (r : ℝ) ≤ n := by exact_mod_cast hround' hpos (by exact_mod_cast hn)
      push_cast
      gcongr
    · -- the bound leaves only the smallest full mantissa
      have hm52 : 2 ^ 52 * 2 ^ k ≤ m := hfull.resolve_right (by omega)
      have hreal : (m : ℝ) ≤ 2 ^ 52 * 2 ^ k := by
        refine le_of_mul_le_mul_right ?_ hunit
        rw [hscale] at hbelow
        linarith
      have hr : r ≤ 2 ^ 52 := hround' hpos (by exact_mod_cast hreal)
      have hrreal : (r : ℝ) ≤ 2 ^ 52 := by exact_mod_cast hr
      have hmreal : (2 : ℝ) ^ 52 * 2 ^ k ≤ m := by exact_mod_cast hm52
      calc (r : ℝ) * 2 ^ (e + k) ≤ 2 ^ 52 * 2 ^ (e + k) := by gcongr
        _ = 2 ^ 52 * 2 ^ k * 2 ^ e := by rw [hscale]; ring
        _ ≤ m * 2 ^ e := by gcongr
        _ ≤ g := hle

theorem value_carried (s : Sign) {r : ℕ} {e : ℤ} (hr : r ≤ 2 ^ 53) (hlow : -1074 ≤ e)
    (hfull : 2 ^ 52 ≤ r ∨ e = -1074) :
    value (Float.Model.pack (carried s r e)).unpack = some (real s r e : ℝ) ∨
      value (Float.Model.pack (carried s r e)).unpack = value (.infinity s) ∧
        2 ^ (1024 : ℤ) ≤ real .positive r e := by
  rw [carried]
  by_cases hzero : r = 0
  · left
    rw [dif_pos hzero, hzero, real]
    cases s
    · change some (0 : EReal) = _
      simp [Sign.apply]
    · change some (0 : EReal) = _
      simp [Sign.apply]
  · rw [dif_neg hzero]
    by_cases hlt : r < 2 ^ 53
    · rw [if_pos hlt]
      by_cases hhigh : e ≤ 971
      · left
        rw [Canonical.unpack_pack ⟨hlt, hlow, hhigh, hfull⟩]
        rfl
      · right
        have hr52 : (2 : ℝ) ^ (52 : ℤ) ≤ r := by exact_mod_cast hfull.resolve_right (by omega)
        refine ⟨by rw [unpack_overflow s _ (by omega)], ?_⟩
        calc (2 : ℝ) ^ (1024 : ℤ) = 2 ^ (52 : ℤ) * 2 ^ (972 : ℤ) := by
              rw [← zpow_add₀ two_ne_zero]; norm_num
          _ ≤ r * 2 ^ e := by
              gcongr
              · exact one_le_two
              · omega
    · rw [if_neg hlt]
      obtain rfl : r = 2 ^ 53 := by omega
      have hcarry (t : Sign) : real t (2 ^ 53) e = real t (2 ^ 52) (e + 1) := by
        rw [real, real, zpow_add_one₀ two_ne_zero]
        cases t
        · simp only [Sign.apply]
          push_cast
          ring
        · simp only [Sign.apply]
          push_cast
          ring
      by_cases hhigh : e + 1 ≤ 971
      · left
        rw [Canonical.unpack_pack ⟨by norm_num, by omega, hhigh, .inl le_rfl⟩, hcarry]
        rfl
      · right
        refine ⟨by rw [unpack_overflow s _ (by omega)], ?_⟩
        rw [hcarry, real_positive]
        calc (2 : ℝ) ^ (1024 : ℤ) = 2 ^ (52 : ℤ) * 2 ^ (972 : ℤ) := by
              rw [← zpow_add₀ two_ne_zero]; norm_num
          _ ≤ ((2 ^ 52 : ℕ) : ℝ) * 2 ^ (e + 1) := by
              push_cast
              gcongr
              · norm_num
              · exact one_le_two
              · omega

theorem value_roundWithAccuracy (s : Sign) {m : ℕ} {e : ℤ} (hm : 0 < m)
    (hfine : 52 ≤ m.log2 ∨ e ≤ -1074) :
    ∃ v, value (Float.Model.pack (roundWithAccuracy Format.binary64 s m e .exact)).unpack = some v ∧
      Faithful (real s m e) v := by
  have hpos := Nat.two_pow_pos (excess m e)
  have hkept := faithful_kept hm hfine
  have hfull : 2 ^ 52 ≤ roundHalfEven m (2 ^ excess m e) ∨ e + excess m e = -1074 :=
    (kept_full hm hfine).imp_left fun h => le_roundHalfEven hpos h
  have hcases :=
    value_carried s (roundHalfEven_le hpos (kept_lt m e).le) (excess_bounds m e).1 hfull
  rw [← roundWithAccuracy_exact] at hcases
  rcases hcases with hvalue | ⟨hvalue, hbig⟩
  · refine ⟨_, hvalue, ?_⟩
    cases s with
    | positive => exact hkept
    | negative =>
      rw [real_negative, real_negative, EReal.coe_neg]
      exact hkept.neg
  · cases s with
    | positive => exact ⟨⊤, hvalue, hkept.top hbig⟩
    | negative =>
      refine ⟨⊥, hvalue, ?_⟩
      rw [real_negative]
      exact (hkept.top hbig).neg

end RoundValue

section Operations

variable {x y : Float}

theorem denotes_real {a : ℝ} (h : Denotes x a) :
    (∃ s, x.toModel.unpack = .zero s) ∧ a = 0 ∨
      ∃ s m e hm, x.toModel.unpack = .finite s m e hm ∧ a = real s m e := by
  rw [Denotes] at h
  cases hx : x.toModel.unpack with
  | notANumber =>
    rw [hx] at h
    cases h
  | infinity s =>
    rw [hx] at h
    cases s
    · exact absurd (Option.some.inj h) (EReal.bot_ne_coe a)
    · exact absurd (Option.some.inj h) (EReal.top_ne_coe a)
  | zero s =>
    rw [hx] at h
    exact .inl ⟨⟨s, rfl⟩, EReal.coe_eq_zero.mp (Option.some.inj h).symm⟩
  | finite s m e hm =>
    rw [hx] at h
    exact .inr ⟨s, m, e, hm, rfl, (EReal.coe_eq_coe_iff.mp (Option.some.inj h)).symm⟩

theorem faithful_self (q : ℝ) : Faithful q q :=
  ⟨fun _ h => EReal.coe_le_coe_iff.mpr h, fun _ h => EReal.coe_le_coe_iff.mpr h⟩

theorem roundsTo_self (q : ℝ) : RoundsTo q q := (faithful_self q).roundsTo

theorem apply_mul (s t : Sign) (a b : ℤ) : (s * t).apply (a * b) = s.apply a * t.apply b := by
  cases s <;> cases t
  · exact (neg_mul_neg a b).symm
  · exact (neg_mul a b).symm
  · exact (mul_neg a b).symm
  · rfl

theorem real_mul (s t : Sign) (m n : ℕ) (e f : ℤ) :
    real (s * t) (m * n) (e + f) = real s m e * real t n f := by
  rw [real, real, real, zpow_add₀ two_ne_zero, Nat.cast_mul, apply_mul]
  push_cast
  ring

theorem value_zero (s : Sign) :
    value (Float.Model.pack (.zero s)).unpack = some ((0 : ℝ) : EReal) := by
  cases s <;> rfl

/-- A product of doubles has bits to spare, unless both are subnormal. -/
theorem mul_fine {m n : ℕ} {e f : ℤ} (hm : Canonical m e) (hn : Canonical n f) (hm0 : 0 < m)
    (hn0 : 0 < n) : 52 ≤ (m * n).log2 ∨ e + f ≤ -1074 := by
  have hprod : m * n ≠ 0 := Nat.mul_ne_zero (by omega) (by omega)
  rcases hm.full with hfull | rfl
  · exact .inl ((Nat.le_log2 hprod).mpr (hfull.trans (Nat.le_mul_of_pos_right m hn0)))
  · rcases hn.full with hfull | rfl
    · exact .inl ((Nat.le_log2 hprod).mpr (hfull.trans (Nat.le_mul_of_pos_left n hm0)))
    · exact .inr (by decide)

theorem rounds_mul {a b : ℝ} (hx : Denotes x a) (hy : Denotes y b) : Rounds (x * y) (a * b) := by
  have hunpack : (x * y).toModel.unpack =
      (Float.Model.pack
        (UnpackedFloat.mul Format.binary64 x.toModel.unpack y.toModel.unpack)).unpack :=
    rfl
  simp only [Rounds, Denotes, hunpack]
  rcases denotes_real hx with ⟨⟨s, hs⟩, rfl⟩ | ⟨s, m, e, hm, hs, rfl⟩
  · refine ⟨((0 : ℝ) : EReal), ?_, by simpa using faithful_self 0⟩
    rcases denotes_real hy with ⟨⟨t, ht⟩, rfl⟩ | ⟨t, n, f, hn, ht, rfl⟩
    · rw [hs, ht]
      exact value_zero (s * t)
    · rw [hs, ht]
      exact value_zero (s * t)
  · rcases denotes_real hy with ⟨⟨t, ht⟩, rfl⟩ | ⟨t, n, f, hn, ht, rfl⟩
    · refine ⟨((0 : ℝ) : EReal), ?_, by simpa using faithful_self 0⟩
      rw [hs, ht]
      exact value_zero (s * t)
    · rw [hs, ht, ← real_mul]
      exact value_roundWithAccuracy (s * t) (Nat.mul_pos hm hn)
        (mul_fine (canonical_of_unpack hs) (canonical_of_unpack ht) hm hn)

theorem denotes_mul {a b : ℝ} (hx : Denotes x a) (hy : Denotes y b) :
    ∃ v, Denotes (x * y) v ∧ RoundsTo (a * b) v :=
  (rounds_mul hx hy).imp fun _ h => ⟨h.1, h.2.roundsTo⟩

theorem real_shiftLeft (s : Sign) (m k : ℕ) (e : ℤ) :
    real s (m <<< k) (e - k) = real s m e := by
  have hpow : (2 : ℝ) ^ k ≠ 0 := pow_ne_zero k two_ne_zero
  rw [real, real, Nat.shiftLeft_eq, zpow_sub₀ two_ne_zero, zpow_natCast]
  cases s
  · simp only [Sign.apply]
    push_cast
    field_simp
  · simp only [Sign.apply]
    push_cast
    field_simp

theorem value_round (s : Sign) {m : ℕ} (e : ℤ) (hm : 0 < m) :
    ∃ v, value (Float.Model.pack (UnpackedFloat.round Format.binary64 s m e)).unpack = some v ∧
      Faithful (real s m e) v := by
  rw [UnpackedFloat.round, targetExponent_eq, decreaseExponent]
  simp only
  generalize hk : (e - max ((m.log2 : ℤ) + e - 52) (-1074)).toNat = k
  have hshift : m <<< k = m * 2 ^ k := Nat.shiftLeft_eq m k
  have hpos : 0 < m <<< k := by
    rw [hshift]
    exact Nat.mul_pos hm (Nat.two_pow_pos k)
  rw [← real_shiftLeft s m k e]
  refine value_roundWithAccuracy s hpos ?_
  by_cases hfull : 52 ≤ m.log2 + k
  · refine .inl ((Nat.le_log2 (by omega)).mpr ?_)
    rw [hshift]
    calc 2 ^ 52 ≤ 2 ^ (m.log2 + k) := Nat.pow_le_pow_right (by decide) hfull
      _ = 2 ^ m.log2 * 2 ^ k := Nat.pow_add 2 m.log2 k
      _ ≤ m * 2 ^ k := Nat.mul_le_mul_right _ (Nat.log2_self_le (by omega))
  · exact .inr (by omega)

theorem value_normalize (n e : ℤ) (z : Sign) :
    ∃ v, value (Float.Model.pack (UnpackedFloat.normalize Format.binary64 n e z)).unpack = some v ∧
      Faithful (n * 2 ^ e) v := by
  rw [UnpackedFloat.normalize]
  split
  · rename_i hneg
    have hlt : n < 0 := compare_lt_iff_lt.mp hneg
    have hreal : (n : ℝ) * 2 ^ e = real .negative (-n).toNat e := by
      rw [real_negative, real_positive, ← Int.cast_natCast, Int.toNat_of_nonneg (by omega)]
      push_cast
      ring
    rw [hreal]
    exact value_round .negative e (by omega)
  · rename_i hzero
    obtain rfl : n = 0 := compare_eq_iff_eq.mp hzero
    refine ⟨((0 : ℝ) : EReal), value_zero z, ?_⟩
    rw [Int.cast_zero, zero_mul]
    exact faithful_self 0
  · rename_i hpos
    have hlt : 0 < n := compare_gt_iff_gt.mp hpos
    have hreal : (n : ℝ) * 2 ^ e = real .positive n.toNat e := by
      rw [real_positive, ← Int.cast_natCast, Int.toNat_of_nonneg (by omega)]
    rw [hreal]
    exact value_round .positive e (by omega)

theorem rounds_asF64 (n : ℤ) : Rounds (asF64 n) n := by
  obtain ⟨v, hv, hround⟩ := value_normalize n 0 .positive
  rw [zpow_zero, mul_one] at hround
  exact ⟨v, hv, hround⟩

theorem denotes_asF64 (n : ℤ) : ∃ v, Denotes (asF64 n) v ∧ RoundsTo n v :=
  (rounds_asF64 n).imp fun _ h => ⟨h.1, h.2.roundsTo⟩

end Operations

end Binary64
