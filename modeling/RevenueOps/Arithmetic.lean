import Mathlib.Algebra.Order.Floor.Ring
import Mathlib.Algebra.Order.Ring.Rat
import RevenueOps.RustFloat

/-! What a program does with an f64, over any type of numbers. A double rounds and has its NaN; in
an ordered field every number is finite and the operations are exact. The four operations, the
comparisons and the literals come from the type's own instances. -/
namespace Arithmetic

/-- The methods of f64 and its casts from and to i64. -/
class F64 (F : Type) where
  isFinite : F → Bool
  max : F → F → F
  min : F → F → F
  abs : F → F
  ofInt : ℤ → F
  toI64 : F → ℤ

/-- The functions that leave the rationals. -/
class F64Functions (F : Type) where
  sqrt : F → F
  ln : F → F
  powf : F → F → F

instance : F64 Float where
  isFinite := Float.isFinite
  max := RustFloat.maxF64
  min := RustFloat.minF64
  abs := Float.abs
  ofInt := RustNumber.asF64
  toI64 := RustNumber.asI64

instance : F64Functions Float where
  sqrt := Float.sqrt
  ln := Float.log
  powf := Float.pow

section Exact

variable {F : Type} [Field F] [LinearOrder F] [FloorRing F]

def truncate (x : F) : ℤ := if 0 ≤ x then ⌊x⌋ else ⌈x⌉

instance exact : F64 F where
  isFinite := fun _ => true
  max := Max.max
  min := Min.min
  abs := fun x => Max.max x (-x)
  ofInt := fun n => n
  toI64 := fun x => Max.max (-9223372036854775808) (Min.min 9223372036854775807 (truncate x))

@[simp] theorem isFinite_exact (x : F) : F64.isFinite x = true := rfl
@[simp] theorem max_exact (x y : F) : F64.max x y = Max.max x y := rfl
@[simp] theorem min_exact (x y : F) : F64.min x y = Min.min x y := rfl
@[simp] theorem abs_exact (x : F) : F64.abs x = |x| := rfl
@[simp] theorem ofInt_exact (n : ℤ) : (F64.ofInt n : F) = n := rfl

end Exact

end Arithmetic
