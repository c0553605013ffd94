import RevenueOps.PyJson
import RevenueOps.ThompsonRecompute

/-! The inventory term of the fee: a controller of the share of outbound liquidity, its multiplier
and what a persisted dictionary restores of it. A call that panics has no result. -/
namespace Pid

open Arithmetic PyJson RustNumber
open RustFloat (clampF64)

/-- The logarithms that the learned state is scaled with. -/
class Logarithms (F : Type) where
  log2 : F → F
  ln1p : F → F

structure PidState (F : Type) where
  kp : F
  ki : F
  kd : F
  ewmaError : F
  integralError : F
  prevEwmaError : F
  lastUpdateTime : ℤ
  integralClamp : F

section Multiplier

variable {F : Type} [Add F] [Sub F] [Mul F] [Div F] [Neg F] [LT F] [LE F] [DecidableLT F]
  [DecidableLE F] [OfScientific F] [F64 F] [F64Functions F] [Logarithms F]

def PidState.default : PidState F where
  kp := 2.0
  ki := 0.1
  kd := 0.0
  ewmaError := 0.0
  integralError := 0.0
  prevEwmaError := 0.0
  lastUpdateTime := 0
  integralClamp := 3.0

def pidTargetRatios : List (String × F) :=
  [("source", 0.7), ("sink", 0.3), ("balanced", 0.5), ("balanced_active", 0.5), ("dormant", 0.5),
    ("congested", 0.5), ("unknown", 0.5)]

def targetRatio (flowState : String) : F := (pidTargetRatios.lookup flowState).getD 0.5

def ewmaAlpha : F := 0.3

/-- The hours since the last update; the first update has none. -/
def elapsed (s : PidState F) (now : ℤ) : Option F :=
  if s.lastUpdateTime ≤ 0 then some 0.0
  else (i64? (now - s.lastUpdateTime)).map fun d => F64.max (F64.ofInt d / 3600.0) 0.0

/-- f64::clamp panics when its bounds are not in order. -/
def clamp (x lo hi : F) : Option F := if lo ≤ hi then some (clampF64 x lo hi) else none

/-- A ratio that is no number counts as the target. -/
def rawError (currentOutboundRatio : F) (flowState : String) : F :=
  targetRatio flowState -
    (if F64.isFinite currentOutboundRatio then currentOutboundRatio else targetRatio flowState)

def scaleOf (capacitySats : ℤ) : F :=
  1.0 / Logarithms.log2 (F64.ofInt (max capacitySats 1) / 1000000.0 + 2.0)

def accumulated (s : PidState F) (ewmaError dt : F) : Option F :=
  if 0.0 < dt then clamp (s.integralError + ewmaError * dt) (-s.integralClamp) s.integralClamp
  else some s.integralError

def calculateMultiplier (s : PidState F) (currentOutboundRatio : F) (capacitySats : ℤ)
    (flowState : String) (now : ℤ) : Option (PidState F × F) := do
  let dt ← elapsed s now
  let ewmaError :=
    ewmaAlpha * rawError currentOutboundRatio flowState + (1.0 - ewmaAlpha) * s.ewmaError
  let scale := scaleOf capacitySats
  let pTerm := s.kp * scale * ewmaError
  let integralError ← accumulated s ewmaError dt
  let iTerm := s.ki * scale * integralError
  let output := pTerm + iTerm + 0.0
  let multiplier ← clamp (F64Functions.powf 1.5 output) 0.5 2.0
  some ({ s with
    ewmaError := ewmaError
    integralError := integralError
    prevEwmaError := ewmaError
    lastUpdateTime := now }, multiplier)

end Multiplier

section Restore

def numOr (d : OValue) (key : String) (default : Float) : Float :=
  match d.get key with
  | some v => (v.asF64.or (v.asStr.bind FloatText.parseF64)).getD default
  | none => default

def intOr (d : OValue) (key : String) (default : ℤ) : ℤ :=
  match d.get key with
  | some v => (v.asI64.or (v.asStr.bind RustText.parseI64)).getD default
  | none => default

def pidFromDict (d : OValue) : PidState Float where
  kp := numOr d "kp" PidState.default.kp
  ki := numOr d "ki" PidState.default.ki
  kd := numOr d "kd" PidState.default.kd
  ewmaError := numOr d "ewma_error" PidState.default.ewmaError
  integralError := numOr d "integral_error" PidState.default.integralError
  prevEwmaError := numOr d "prev_ewma_error" PidState.default.prevEwmaError
  lastUpdateTime := intOr d "last_update_time" PidState.default.lastUpdateTime
  integralClamp := numOr d "integral_clamp" PidState.default.integralClamp

end Restore

end Pid
