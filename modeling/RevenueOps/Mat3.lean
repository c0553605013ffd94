import Mathlib.Data.Fin.VecNotation
import RevenueOps.Arithmetic

/-! Matrices of three rows, as the posterior's regression uses them. -/
namespace Mat3

open Arithmetic

abbrev V3 (F : Type) := Fin 3 → F
abbrev M3 (F : Type) := Fin 3 → Fin 3 → F

scoped instance three_neZero : NeZero 3 := ⟨by decide⟩

variable {F : Type} [Add F] [Sub F] [Mul F] [Div F] [LT F] [DecidableLT F] [OfScientific F] [F64 F]

def det3 (m : M3 F) : F :=
  m 0 0 * (m 1 1 * m 2 2 - m 1 2 * m 2 1) - m 0 1 * (m 1 0 * m 2 2 - m 1 2 * m 2 0) +
    m 0 2 * (m 1 0 * m 2 1 - m 1 1 * m 2 0)

def maxElem (m : M3 F) : F :=
  let row (i : Fin 3) : List F := [F64.abs (m i 0), F64.abs (m i 1), F64.abs (m i 2)]
  (row 0 ++ row 1 ++ row 2).foldl F64.max (F64.abs (m 0 0))

/-- The inverse by cofactors. A determinant that is small against the entries has none. -/
def invert3 (m : M3 F) : Option (M3 F) :=
  let det := det3 m
  let tol := 1e-10 * F64.max (maxElem m * maxElem m * maxElem m) 1.0
  if F64.abs det < tol then none
  else
    let invDet := 1.0 / det
    some ![
      ![(m 1 1 * m 2 2 - m 1 2 * m 2 1) * invDet, (m 0 2 * m 2 1 - m 0 1 * m 2 2) * invDet,
        (m 0 1 * m 1 2 - m 0 2 * m 1 1) * invDet],
      ![(m 1 2 * m 2 0 - m 1 0 * m 2 2) * invDet, (m 0 0 * m 2 2 - m 0 2 * m 2 0) * invDet,
        (m 0 2 * m 1 0 - m 0 0 * m 1 2) * invDet],
      ![(m 1 0 * m 2 1 - m 1 1 * m 2 0) * invDet, (m 0 1 * m 2 0 - m 0 0 * m 2 1) * invDet,
        (m 0 0 * m 1 1 - m 0 1 * m 1 0) * invDet]]

def matvec3 (m : M3 F) (v : V3 F) : V3 F := fun i => m i 0 * v 0 + m i 1 * v 1 + m i 2 * v 2

section Cholesky

variable [F64Functions F]

/-- One entry of the factor; the ones before it in its row and column are in `l` already. -/
def choleskyEntry (m l : M3 F) (cell : Fin 3 × Fin 3) : Option (M3 F) :=
  let i := cell.1
  let j := cell.2
  let s := ((List.finRange 3).filter (· < j)).foldl (fun s k => s + l i k * l j k) 0.0
  let store (x : F) : M3 F := Function.update l i (Function.update (l i) j x)
  if i = j then
    let val := m i i - s
    if val < 1e-12 then none else some (store (F64Functions.sqrt val))
  else if l j j < 1e-12 then none
  else some (store ((m i j - s) / l j j))

/-- The lower triangular factor, row by row. A pivot or a divisor under the tolerance has none. -/
def cholesky3 (m : M3 F) : Option (M3 F) :=
  [(0, 0), (1, 0), (1, 1), (2, 0), (2, 1), (2, 2)].foldlM (choleskyEntry m) (fun _ _ => 0.0)

end Cholesky

end Mat3
