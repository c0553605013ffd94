import RevenueOps.PidController

/-! What a persisted dictionary restores of a channel's learned state. Nothing fails here: a value
of the wrong type gives way to the default of its field. -/
namespace Thompson

open Arithmetic Mat3 PyJson RustFloat RustNumber FloatText
open Pid (Logarithms)

section Coercions

/-- Python's float(x); none where it raises. -/
def tryFloat : OValue → Option Float
  | .int i => some (asF64 i)
  | .float f => some f
  | .bool b => some (if b then 1.0 else 0.0)
  | .str s => parseF64 (RustText.trim s)
  | _ => none

/-- Python's int(x); none where it raises. -/
def tryInt : OValue → Option ℤ
  | .int i => some i
  | .float f => if f.isFinite then some (RustNumber.asI64 f) else none
  | .bool b => some (if b then 1 else 0)
  | .str s => RustText.parseI64 (RustText.trim s)
  | _ => none

/-- A field that is kept as it was written, a whole number or not. -/
def numberField (d : OValue) (key : String) (default : Float) (defaultIsInt : Bool) :
    Float × Bool :=
  match d.get key with
  | some (.int i) => (asF64 i, true)
  | some (.float f) => (f, false)
  | _ => (default, defaultIsInt)

def floatField (d : OValue) (key : String) : Float := ((d.get key).bind tryFloat).getD 0.0

def magnitudeField (d : OValue) (key : String) : Float :=
  (((d.get key).bind tryFloat).filter fun v => v.isFinite && decide (0.0 ≤ v)).getD 0.0

def countField (d : OValue) (key : String) : ℤ :=
  (((d.get key).bind tryInt).map fun v => max v 0).getD 0

def plainInt (d : OValue) (key : String) : ℤ := ((d.get key).bind OValue.asI64).getD 0

end Coercions

section Parts

variable [F64Functions Float] [Logarithms Float]

def weightScheme : String := "exposure_v2"
def zeroRevenueWeightFactor : Float := 0.15
def explorationBoostMin : Float := 0.75
def explorationBoostMax : Float := 2.0

/-- A weight from before the scheme, taken back to what the exposure alone gives it. -/
def rescaledWeight (rate w : Float) : Float :=
  let scaled :=
    if 0.0 < rate then
      let factor := minF64 (Logarithms.ln1p rate / Logarithms.ln1p 1000.0) 1.0
      if 0.0 < factor ∧ 0.0 < w then w / factor else w
    else w / zeroRevenueWeightFactor
  minF64 scaled 1.0

/-- A window as a list of at least four values; a shorter one is dropped. -/
def convertObservation (legacyWeights : Bool) (item : OValue) : Option (Observation Float) :=
  match item.asArr with
  | some (fee :: rate :: weight :: ts :: rest) =>
    let rest := if rest.isEmpty then [.str "normal"] else rest
    let revenueRate := rate.asF64.getD 0.0
    let w := weight.asF64.getD 0.0
    let flag := rest[1]?.bind OValue.asStr
    some
      { fee := fee.asF64.getD 0.0
        feeIsInt := fee.isInt
        revenueRate := revenueRate
        weight := if legacyWeights then rescaledWeight revenueRate w else w
        ts := ts.asI64.getD 0
        timeBucket := (rest[0]?.bind OValue.asStr).getD "normal"
        flag := flag
        extra := rest.drop (if flag.isSome then 2 else 1) }
  | _ => none

/-- A context of three values is from before precisions were kept. -/
def convertCtxPosterior (v : OValue) : CtxPosterior Float :=
  match v.asArr with
  | none => ⟨0.0, 1.0, 0, 0, false⟩
  | some [mean, std, count] =>
    { mean := mean.asF64.getD 0.0
      precision := 1.0 /
        maxF64 (F64Functions.powf (std.asF64.getD 0.0) 2.0) (F64Functions.powf minStd 2.0)
      count := count.asI64.getD 0
      lastUpdate := 0
      wasLegacy3tuple := true }
  | some items =>
    { mean := (items[0]?.bind OValue.asF64).getD 0.0
      precision := (items[1]?.bind OValue.asF64).getD 0.0
      count := (items[2]?.bind OValue.asI64).getD 0
      lastUpdate := (items[3]?.bind OValue.asI64).getD 0
      wasLegacy3tuple := false }

def parseV3Strict (v : Option OValue) : Option (V3 Float) :=
  match v.bind OValue.asArr with
  | some [x, y, z] => do some ![← tryFloat x, ← tryFloat y, ← tryFloat z]
  | _ => none

def parseRow (v : OValue) : Option (V3 Float) :=
  match v.asArr with
  | some [x, y, z] => do some ![← x.asF64, ← y.asF64, ← z.asF64]
  | _ => none

/-- A matrix whose diagonal is positive; an entry that is no number fails the test. -/
def parseM3Pd (v : Option OValue) : Option (M3 Float) :=
  match v.bind OValue.asArr with
  | some [x, y, z] => do
    let a ← parseRow x
    let b ← parseRow y
    let c ← parseRow z
    if 0.0 < a 0 ∧ 0.0 < b 1 ∧ 0.0 < c 2 then some ![a, b, c] else none
  | _ => none

def convertNudge (entry : OValue) : Option (Nudge Float) :=
  match entry.asArr with
  | some (target :: weight :: ts :: _) => do
    let target ← tryFloat target
    let weight ← tryFloat weight
    let ts ← tryInt ts
    if target.isFinite ∧ weight.isFinite ∧ 0.0 < weight ∧ 0.0 ≤ target then
      some ⟨target, weight, ts⟩
    else none
  | _ => none

def convertPosteriorBias (items : List OValue) : List (Nudge Float) :=
  (items.drop (items.length - maxBiasNudges)).filterMap convertNudge

def knownKeys : List String :=
  ["prior_mean_fee", "prior_std_fee", "observations", "posterior_mean", "posterior_std",
    "posterior_variance", "posterior_coeffs", "posterior_precision", "noise_variance",
    "_prior_coeffs", "_prior_precision", "_last_fee_min", "_last_fee_max", "contextual_posteriors",
    "posterior_bias", "charged_fee_mean", "zero_revenue_streak", "zero_run_start_fee",
    "zero_run_start_ts", "positive_rate_ref", "positive_rate_ref_ts", "meaningful_gap_ema_hours",
    "last_meaningful_ts", "last_upward_probe_ts", "weight_scheme", "exploration_boost",
    "last_sampled_fee", "last_sample_time", "reseeded_at"]

end Parts

section Restore

variable [F64Functions Float] [Logarithms Float]

def gtsFromDict (d : OValue) : GaussianThompsonState Float :=
  let fresh : GaussianThompsonState Float := .default
  let legacyWeights := decide ((d.get "weight_scheme").bind OValue.asStr ≠ some weightScheme)
  let boost := (((d.get "exploration_boost").bind tryFloat).filter Float.isFinite).getD 1.0
  { priorMeanFee := (numberField d "prior_mean_fee" 200.0 true).1
    priorMeanFeeIsInt := (numberField d "prior_mean_fee" 200.0 true).2
    priorStdFee := (numberField d "prior_std_fee" 100.0 true).1
    priorStdFeeIsInt := (numberField d "prior_std_fee" 100.0 true).2
    observations :=
      (((d.get "observations").bind OValue.asArr).getD []).filterMap
        (convertObservation legacyWeights)
    posteriorMean := (numberField d "posterior_mean" 200.0 false).1
    posteriorMeanIsInt := (numberField d "posterior_mean" 200.0 false).2
    posteriorStd := (numberField d "posterior_std" 100.0 false).1
    posteriorStdIsInt := (numberField d "posterior_std" 100.0 false).2
    posteriorCoeffs := (parseV3Strict (d.get "posterior_coeffs")).getD fresh.posteriorCoeffs
    posteriorPrecision := (parseM3Pd (d.get "posterior_precision")).getD fresh.posteriorPrecision
    noiseVariance := maxF64 (((d.get "noise_variance").bind OValue.asF64).getD 1000.0) 10.0
    priorCoeffs := (parseV3Strict (d.get "_prior_coeffs")).getD fresh.priorCoeffs
    priorPrecision := (parseM3Pd (d.get "_prior_precision")).getD fresh.priorPrecision
    lastFeeMin := floatField d "_last_fee_min"
    lastFeeMax := floatField d "_last_fee_max"
    contextualPosteriors :=
      (((d.get "contextual_posteriors").bind OValue.asObj).getD []).map fun e =>
        (e.1, convertCtxPosterior e.2)
    posteriorBias := convertPosteriorBias (((d.get "posterior_bias").bind OValue.asArr).getD [])
    chargedFeeMean := magnitudeField d "charged_fee_mean"
    zeroRevenueStreak := countField d "zero_revenue_streak"
    zeroRunStartFee := magnitudeField d "zero_run_start_fee"
    zeroRunStartTs := countField d "zero_run_start_ts"
    positiveRateRef := magnitudeField d "positive_rate_ref"
    positiveRateRefTs := countField d "positive_rate_ref_ts"
    meaningfulGapEmaHours := magnitudeField d "meaningful_gap_ema_hours"
    lastMeaningfulTs := countField d "last_meaningful_ts"
    lastUpwardProbeTs := countField d "last_upward_probe_ts"
    explorationBoost := clampF64 boost explorationBoostMin explorationBoostMax
    lastSampledFee := plainInt d "last_sampled_fee"
    lastSampleTime := plainInt d "last_sample_time"
    reseededAt := countField d "reseeded_at"
    extra := (d.asObj.getD []).filter fun e => !knownKeys.contains e.1 }

end Restore

end Thompson
