import Mathlib.Algebra.Ring.Int.Defs
import Mathlib.Algebra.Ring.Nat
import RevenueOps.RustNumber

/-! Rust's f64::max, f64::min, f64::clamp and f64::total_cmp, its roundings to a whole number, and
Python's round. -/
namespace RustFloat

open RustNumber

def maxF64 (x y : Float) : Float :=
  if x.isNaN then y else if y.isNaN then x else if x < y then y else x

def minF64 (x y : Float) : Float :=
  if x.isNaN then y else if y.isNaN then x else if y < x then y else x

def clampF64 {F : Type} [LT F] [DecidableLT F] (x lo hi : F) : F :=
  if x < lo then lo else if hi < x then hi else x

/-- f64::total_cmp compares these. -/
def totalKey (x : Float) : ℤ :=
  let bits := x.toBits.toNat
  if bits < 2 ^ 63 then bits else -1 - (bits - 2 ^ 63 : ℤ)

/-- The quotient rounded to the nearest integer, ties to even. -/
def roundHalfEven (a b : ℕ) : ℕ :=
  let q := a / b
  let r := a % b
  if 2 * r < b ∨ (2 * r = b ∧ q % 2 = 0) then q else q + 1

/-- A double without a fractional part is its own rounding; elsewhere `f` rounds the quotient. -/
def toWhole (f : Float.Model.UnpackedFloat.Sign → ℕ → ℕ → ℕ) (x : Float) : Float :=
  match x.toModel.unpack with
  | .finite sign mantissa exponent _ =>
    if 0 ≤ exponent then x
    else
      let whole := asF64 (f sign mantissa (2 ^ (-exponent).toNat))
      match sign with
      | .positive => whole
      | .negative => -whole
  | _ => x

def floorF64 : Float → Float := toWhole fun sign a b =>
  match sign with
  | .positive => a / b
  | .negative => (a + b - 1) / b

def ceilF64 : Float → Float := toWhole fun sign a b =>
  match sign with
  | .positive => (a + b - 1) / b
  | .negative => a / b

/-- f64::round_ties_even. -/
def roundTiesEvenF64 : Float → Float := toWhole fun _ => roundHalfEven

/-- py_round: the exact decimal with so many digits, read back. -/
def pyRound (x : Float) (digits : ℕ) : Float :=
  match x.toModel.unpack with
  | .finite sign mantissa exponent _ =>
    let n := roundHalfEven (mantissa * 2 ^ exponent.toNat * 10 ^ digits) (2 ^ (-exponent).toNat)
    let rounded := Float.ofModel (Float.Model.ofScientific n (-digits))
    match sign with
    | .positive => rounded
    | .negative => -rounded
  | _ => x

end RustFloat
