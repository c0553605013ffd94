import Mathlib.Analysis.SpecialFunctions.Pow.Real
import RevenueOps.Arithmetic

/-! The functions of f64 over the real numbers. -/
namespace Arithmetic

noncomputable instance : F64Functions ℝ where
  sqrt := Real.sqrt
  ln := Real.log
  powf := fun x y => x ^ y

@[simp] theorem sqrt_real (x : ℝ) : F64Functions.sqrt x = Real.sqrt x := rfl
@[simp] theorem ln_real (x : ℝ) : F64Functions.ln x = Real.log x := rfl
@[simp] theorem powf_real (x y : ℝ) : F64Functions.powf x y = x ^ y := rfl

end Arithmetic
