import Mathlib.Algebra.Order.Field.Basic
import Mathlib.Tactic.FieldSimp
import Mathlib.Tactic.Linarith
import Mathlib.Tactic.Positivity
import Mathlib.Tactic.Ring

/-! Covariance matrices of two variables. The steps of a two-dimensional linear filter keep them
positive definite: adding noise, moving time on, conditioning on an observation of the first
variable, and raising a variance. -/
namespace Covariance

@[ext] structure Cov (K : Type) where
  first : K
  second : K
  cross : K

variable {K : Type} [Field K] [LinearOrder K] [IsStrictOrderedRing K]

def Cov.det (p : Cov K) : K := p.first * p.second - p.cross ^ 2

structure PosDef (p : Cov K) : Prop where
  first : 0 < p.first
  det : 0 < p.det

def Cov.add (p q : Cov K) : Cov K := ⟨p.first + q.first, p.second + q.second, p.cross + q.cross⟩

def Cov.shear (p : Cov K) (t : K) : Cov K :=
  ⟨p.first + (t * p.cross + t * p.cross) + t * t * p.second, p.second, p.cross + t * p.second⟩

def Cov.condition (p : Cov K) (r : K) : Cov K :=
  ⟨p.first * r / (p.first + r), p.second - p.cross ^ 2 / (p.first + r),
    p.cross * r / (p.first + r)⟩

variable {p q : Cov K} {t r : K}

theorem PosDef.second (h : PosDef p) : 0 < p.second := by
  have hdet := h.det
  have hfirst := h.first
  rw [Cov.det] at hdet
  by_contra hle
  have hprod : p.first * p.second ≤ 0 :=
    mul_nonpos_of_nonneg_of_nonpos hfirst.le (not_lt.mp hle)
  have hsq := sq_nonneg p.cross
  linarith

/-- The form x ↦ xᵀpx on the two axes and on the diagonal direction that the other matrix picks. -/
theorem PosDef.add (hp : PosDef p) (hq : PosDef q) : PosDef (p.add q) := by
  have hp1 := hp.first
  have hq1 := hq.first
  have hpd := hp.det
  have hqd := hq.det
  rw [Cov.det] at hpd hqd
  refine ⟨add_pos hp1 hq1, ?_⟩
  -- det(p+q) = det p + det q + (p₁q₂ + q₁p₂ - 2p₃q₃), and the bracket is not negative
  have hp2 := hp.second
  have hq2 := hq.second
  have hcross : 2 * (p.cross * q.cross) ≤ p.first * q.second + q.first * p.second := by
    have hprod : (p.cross * q.cross) ^ 2 ≤
        (p.first * q.second) * (q.first * p.second) := by
      have hpc : p.cross ^ 2 ≤ p.first * p.second := by linarith
      have hqc : q.cross ^ 2 ≤ q.first * q.second := by linarith
      calc (p.cross * q.cross) ^ 2 = p.cross ^ 2 * q.cross ^ 2 := by ring
        _ ≤ (p.first * p.second) * (q.first * q.second) :=
          mul_le_mul hpc hqc (sq_nonneg _) (mul_pos hp1 hp2).le
        _ = (p.first * q.second) * (q.first * p.second) := by ring
    have hu : 0 < p.first * q.second := mul_pos hp1 hq2
    have hv : 0 < q.first * p.second := mul_pos hq1 hp2
    have hmean : (2 * (p.cross * q.cross)) ^ 2 ≤
        (p.first * q.second + q.first * p.second) ^ 2 := by
      have hsq := sq_nonneg (p.first * q.second - q.first * p.second)
      linarith [hsq, hprod,
        show (2 * (p.cross * q.cross)) ^ 2 = 4 * (p.cross * q.cross) ^ 2 by ring,
        show (p.first * q.second + q.first * p.second) ^ 2 =
          (p.first * q.second - q.first * p.second) ^ 2 +
            4 * ((p.first * q.second) * (q.first * p.second)) by ring]
    exact abs_le_of_sq_le_sq' hmean (add_pos hu hv).le |>.2
  calc 0 < p.first * p.second - p.cross ^ 2 + (q.first * q.second - q.cross ^ 2) :=
        add_pos hpd hqd
    _ ≤ p.first * p.second - p.cross ^ 2 + (q.first * q.second - q.cross ^ 2) +
        (p.first * q.second + q.first * p.second - 2 * (p.cross * q.cross)) := by linarith
    _ = (p.add q).det := by
      simp only [Cov.det, Cov.add]
      ring

omit [LinearOrder K] [IsStrictOrderedRing K] in
theorem det_shear (p : Cov K) (t : K) : (p.shear t).det = p.det := by
  simp only [Cov.det, Cov.shear]
  ring

theorem PosDef.shear (h : PosDef p) (t : K) : PosDef (p.shear t) := by
  have hdet := det_shear p t ▸ h.det
  refine ⟨?_, hdet⟩
  by_contra hle
  -- the second variance is the old one, so a first variance that is not positive has no room
  have hprod : (p.shear t).first * (p.shear t).second ≤ 0 :=
    mul_nonpos_of_nonpos_of_nonneg (not_lt.mp hle) h.second.le
  have hsq := sq_nonneg (p.shear t).cross
  rw [Cov.det] at hdet
  linarith

theorem PosDef.condition (h : PosDef p) (hr : 0 < r) : PosDef (p.condition r) := by
  have hs : 0 < p.first + r := add_pos h.first hr
  refine ⟨div_pos (mul_pos h.first hr) hs, ?_⟩
  have hdet : (p.condition r).det = r / (p.first + r) * p.det := by
    simp only [Cov.det, Cov.condition]
    field_simp
    ring
  rw [hdet]
  exact mul_pos (div_pos hr hs) h.det

/-- An observation never adds to the variance of what is observed. -/
theorem condition_first_le (h : 0 < p.first) (hr : 0 < r) :
    (p.condition r).first ≤ p.first := by
  have hs : 0 < p.first + r := add_pos h hr
  rw [Cov.condition, div_le_iff₀ hs]
  have hsq := mul_pos h h
  nlinarith

theorem PosDef.raise {a b : K} (h : PosDef p) (ha : p.first ≤ a) (hb : p.second ≤ b) :
    PosDef ⟨a, b, p.cross⟩ := by
  have hpos := h.first.trans_le ha
  refine ⟨hpos, ?_⟩
  have hdet := h.det
  have hprod : p.first * p.second ≤ a * b := mul_le_mul ha hb h.second.le hpos.le
  rw [Cov.det] at hdet ⊢
  linarith

end Covariance
