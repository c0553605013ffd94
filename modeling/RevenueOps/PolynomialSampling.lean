import RevenueOps.ThompsonRecompute

/-! A draw from the polynomial posterior: three coefficients around the fitted ones, and the fee at
the vertex of their parabola. -/
namespace Thompson

open Arithmetic Mat3

variable {F : Type} [Add F] [Sub F] [Mul F] [Div F] [Neg F] [LT F] [LE F] [DecidableLT F]
  [DecidableLE F] [OfScientific F] [F64 F] [F64Functions F]

/-- The entropy a decision draws from: a label, a mean and a deviation give a number or fail. -/
abbrev Gauss (m : Type → Type) (F : Type) := String → ℤ → ℤ → m F

section Draw

variable {m : Type → Type} [Monad m]

/-- Three standard draws, each scaled before it is used. -/
def drawCoefficients (gaussI64 : Gauss m F) (noiseScale : F) : m (V3 F) := do
  let z0 ← gaussI64 "thompson.polynomial.coefficient.0" 0 1
  let z1 ← gaussI64 "thompson.polynomial.coefficient.1" 0 1
  let z2 ← gaussI64 "thompson.polynomial.coefficient.2" 0 1
  pure ![z0 * noiseScale, z1 * noiseScale, z2 * noiseScale]

/-- The vertex, with a slight extrapolation; a parabola that is not concave has none. -/
def sampledVertex (feeMin feeRange : F) (beta : V3 F) : Option F :=
  if beta 0 < -1e-8 then
    let fStarNorm := -(beta 1) / (2.0 * beta 0)
    some (F64.max (-0.2) (F64.min 1.2 fStarNorm) * feeRange + feeMin)
  else none

/-- The diagonal of a covariance that has no factor. -/
def diagonalSample (s : GaussianThompsonState F) (sigma : M3 F) (z : V3 F) : V3 F :=
  fun i => s.posteriorCoeffs i + z i * F64Functions.sqrt (F64.max (sigma i i) 1e-6)

def factorSample (s : GaussianThompsonState F) (l : M3 F) (z : V3 F) : V3 F :=
  fun i => s.posteriorCoeffs i + matvec3 l z i

/-- The draws, and the vertex of the coefficients that they are placed at. -/
def drawVertex (gaussI64 : Gauss m F) (s : GaussianThompsonState F) (noiseScale : F)
    (place : V3 F → V3 F) : m (Option F) := do
  let z ← drawCoefficients gaussI64 noiseScale
  pure (sampledVertex s.lastFeeMin (s.lastFeeMax - s.lastFeeMin) (place z))

/-- A narrow range of fees and a singular precision draw nothing. -/
def sampleFromPolynomialPosterior (gaussI64 : Gauss m F) (s : GaussianThompsonState F)
    (noiseScale : F) : m (Option F) :=
  if s.lastFeeMax - s.lastFeeMin < 5.0 then pure none
  else
    match invert3 s.posteriorPrecision with
    | none => pure none
    | some sigma =>
      match cholesky3 sigma with
      | none => drawVertex gaussI64 s noiseScale (diagonalSample s sigma)
      | some l => drawVertex gaussI64 s noiseScale (factorSample s l)

end Draw

end Thompson
