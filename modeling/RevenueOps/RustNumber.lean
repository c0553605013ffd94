import Mathlib.Data.Int.Notation
import Mathlib.Order.Lattice

/-! Rust's i64 arithmetic under overflow-checks, and its casts between i64 and f64.
An operation that leaves the range has no value; the caller panics there. -/
namespace RustNumber

def InI64 (x : ℤ) : Prop := -9223372036854775808 ≤ x ∧ x ≤ 9223372036854775807

instance (x : ℤ) : Decidable (InI64 x) := inferInstanceAs (Decidable (_ ∧ _))

def i64? (x : ℤ) : Option ℤ := if InI64 x then some x else none

def addI64 (a b : ℤ) : Option ℤ := i64? (a + b)
def subI64 (a b : ℤ) : Option ℤ := i64? (a - b)
def mulI64 (a b : ℤ) : Option ℤ := i64? (a * b)

/-- The `as i64` cast: towards zero, saturating at the ends, and 0 for NaN. -/
def asI64 (x : Float) : ℤ := x.toModel.toInt64.toInt

/-- The `as f64` cast: the nearest double, ties to even. -/
def asF64 (n : ℤ) : Float := Float.ofModel (Float.Model.ofInt n)

theorem i64?_eq_some {x y : ℤ} : i64? x = some y ↔ InI64 x ∧ x = y := by
  unfold i64?
  split
  · rename_i h
    simp [h]
  · rename_i h
    simp [h]

/-- The checked value is `v` where everything on the way to it fits, and is missing elsewhere. -/
structure Computes {α : Type} (o : Option α) (fits : Prop) (v : α) : Prop where
  value : fits → o = some v
  missing : ¬fits → o = none

section Computes

variable {α β : Type} {o : Option α} {fits : Prop} {v c : α}

theorem Computes.eq_some (h : Computes o fits v) : o = some c ↔ fits ∧ v = c := by
  by_cases hfits : fits
  · simp [h.value hfits, hfits]
  · simp [h.missing hfits, hfits]

theorem computes_pure (v : α) : Computes (pure v) True v :=
  ⟨fun _ => rfl, fun h => absurd trivial h⟩

theorem computes_i64 (x : ℤ) : Computes (i64? x) (InI64 x) x :=
  ⟨fun h => if_pos h, fun h => if_neg h⟩

theorem computes_guard (p : Prop) [Decidable p] : Computes (guard p) p () := by
  have hguard : guard p = if p then some () else none := rfl
  rw [hguard]
  exact ⟨fun h => if_pos h, fun h => if_neg h⟩

theorem Computes.bind {f : α → Option β} {later : Prop} {w : β} (h : Computes o fits v)
    (hf : Computes (f v) later w) : Computes (o >>= f) (fits ∧ later) w := by
  constructor
  · intro hfits
    rw [h.value hfits.1]
    exact hf.value hfits.2
  · intro hfits
    by_cases hfirst : fits
    · rw [h.value hfirst]
      exact hf.missing fun hlater => hfits ⟨hfirst, hlater⟩
    · rw [h.missing hfirst]
      rfl

theorem Computes.congr {fits' : Prop} (h : Computes o fits v) (hiff : fits ↔ fits') :
    Computes o fits' v :=
  ⟨fun hf => h.value (hiff.mpr hf), fun hf => h.missing fun hg => hf (hiff.mp hg)⟩

def whenNeeded (needed : Bool) (o : Option α) : Option Unit :=
  if needed then o.map fun _ => () else some ()

theorem computes_whenNeeded (needed : Bool) (h : Computes o fits v) :
    Computes (whenNeeded needed o) (needed = true → fits) () := by
  cases needed with
  | true =>
    constructor
    · intro hfits
      rw [h.value (hfits rfl)]
      rfl
    · intro hfits
      rw [h.missing fun hf => hfits fun _ => hf]
      rfl
  | false => exact ⟨fun _ => rfl, fun hfits => absurd (nofun : false = true → fits) hfits⟩

end Computes

end RustNumber
