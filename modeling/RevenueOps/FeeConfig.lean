import RevenueOps.ConfigResolve
import RevenueOps.EconCycle
import RevenueOps.FeeExecution

/-! The configuration of one fee cycle, field by field: a persisted override, else the option of
the start, else the default. Overrides may be committed, and queries may fail, between one field
and the next. -/
namespace FeeConfig

open ConfigResolve ConfigTypes KeyedTable RustNumber
open FeeCycle (FeeCfgSnapshot)
open JsonValue (Json)
open RustText (UnicodeCase)

section Layers

/-- The table of overrides as the n-th query finds it, or the failure of that query. -/
abbrev Database := ℕ → Except String (String → Option String)

structure Progress where
  queries : ℕ
  dbQueryFailures : ℕ

abbrev Resolve := StateM Progress

def configOverride (handle : Database) (field : String) :
    Resolve (Except String (Option String)) := fun p =>
  ((handle p.queries).map fun table => table field, { p with queries := p.queries + 1 })

def countFailure : Resolve Unit :=
  modify fun p => { p with dbQueryFailures := p.dbQueryFailures + 1 }

def dbOverrideOnlySuffixes : List String :=
  ["paused", "authority-level", "econ-governor-fees-enabled"]

def isDbOverrideOnly (suffix : String) : Bool := suffix ∈ dbOverrideOnlySuffixes

variable [UnicodeCase] (db : Option Database) (pythonOptionValues : Dict String OptValue)

def dbLayer (suffix : String) : Resolve (Option String) :=
  if isImmutableKey suffix then pure none
  else
    match db with
    | none => pure none
    | some handle => do
      match ← configOverride handle (dbOverrideKey suffix) with
      | .error _ =>
        countFailure
        pure none
      | .ok raw => pure (raw.bind (validateOverride (dbOverrideKey suffix)))

omit [UnicodeCase] in
def pythonLayer (suffix : String) : Option OptValue :=
  if isDbOverrideOnly suffix then none
  else do
    let name ← pythonOptionName suffix
    let raw ← Dict.get? pythonOptionValues name
    some (clampStartupNumeric (dbOverrideKey suffix) raw).1

def resolveRaw (suffix : String) : Resolve (Option OptValue) := do
  match ← dbLayer db suffix with
  | some raw => pure (some (.string raw))
  | none => pure (pythonLayer pythonOptionValues suffix)

def typedOr {α : Type} (suffix : String) (get : Json → Option α) (default : α)
    (raw : Option OptValue) : α :=
  match raw with
  | some raw => (get (typedValue (dbOverrideKey suffix) raw)).getD default
  | none => default

def resolveInt (suffix : String) (default : ℤ) : Resolve ℤ := do
  pure (typedOr suffix Json.asI64 default (← resolveRaw db pythonOptionValues suffix))

def resolveFloat (suffix : String) (default : Float) : Resolve Float := do
  pure (typedOr suffix EconCycle.asF64 default (← resolveRaw db pythonOptionValues suffix))

def resolveBool (suffix : String) (default : Bool) : Resolve Bool := do
  match ← dbLayer db suffix with
  | some raw => pure (typedOr suffix Json.asBool default (some (.string raw)))
  | none =>
    match pythonLayer pythonOptionValues suffix with
    | some (.string s) => pure (pythonStartupBool (dbOverrideKey suffix) s)
    | some (.boolean b) => pure b
    | _ => pure default

def resolveLowercaseString (suffix default : String) : Resolve String := do
  match ← dbLayer db suffix with
  | some raw => pure (typedOr suffix Json.asStr default (some (.string raw)))
  | none =>
    let lowered := fun j => (Json.asStr j).map RustText.toLowercase
    pure (typedOr suffix lowered default (pythonLayer pythonOptionValues suffix))

def resolveStringOpt (suffix : String) (default : Option String) : Resolve (Option String) := do
  match ← resolveRaw db pythonOptionValues suffix with
  | some raw => pure ((typedValue (dbOverrideKey suffix) raw).asStr <|> default)
  | none => pure default

def resolveRawJson (suffix : String) (default : Json) : Resolve Json := do
  match ← resolveRaw db pythonOptionValues suffix with
  | some raw => pure raw.toJson
  | none => pure default

end Layers

section Snapshot

structure ResolvedFeeCfg extends FeeCfgSnapshot where
  thompsonPriorStdFee : ℤ
  authorityLevel : Option String

def ResolvedFeeCfg.default : ResolvedFeeCfg where
  toFeeCfgSnapshot := .default
  thompsonPriorStdFee := 100
  authorityLevel := some "capital"

/-- The crossed pairs: the ceiling is raised to the floor of the fees, the floor of the receivable
ratio is lowered to its target. -/
def repairCrossed (cfg : ResolvedFeeCfg) : ResolvedFeeCfg :=
  let (minFeePpm, maxFeePpm) := repairCrossedFeeBounds cfg.minFeePpm cfg.maxFeePpm
  { cfg with
    minFeePpm
    maxFeePpm
    receivableRatioFloor :=
      if cfg.receivableRatioTarget < cfg.receivableRatioFloor then cfg.receivableRatioTarget
      else cfg.receivableRatioFloor }

variable [UnicodeCase] (db : Option Database) (values : Dict String OptValue)

def resolveFields : Resolve ResolvedFeeCfg := do
  let d : ResolvedFeeCfg := .default
  let minFeePpm ← resolveInt db values "min-fee-ppm" d.minFeePpm
  let maxFeePpm ← resolveInt db values "max-fee-ppm" d.maxFeePpm
  let thompsonPriorStdFee ← resolveInt db values "thompson-prior-std-fee" d.thompsonPriorStdFee
  let minFeePpmSaturated ← resolveInt db values "min-fee-ppm-saturated" d.minFeePpmSaturated
  let feeInterval ← resolveInt db values "fee-interval" d.feeInterval
  let flowInterval ← resolveInt db values "flow-interval" d.flowInterval
  let htlcCongestionThreshold ←
    resolveFloat db values "htlc-congestion-threshold" d.htlcCongestionThreshold
  let marketFeeMode ← resolveLowercaseString db values "market-fee-mode" d.marketFeeMode
  let drainFeeDiscountMax ← resolveFloat db values "drain-fee-discount-max" d.drainFeeDiscountMax
  let highLiquidityThreshold ←
    resolveFloat db values "high-liquidity-threshold" d.highLiquidityThreshold
  let feeProfile ← resolveLowercaseString db values "fee-profile" d.feeProfile
  let baseFeeMsat ← resolveInt db values "base-fee-msat" d.baseFeeMsat
  let enableVegasReflex ← resolveBool db values "vegas-reflex" d.enableVegasReflex
  let enableDynamicHtlcmax ←
    resolveRawJson db values "enable-dynamic-htlcmax" d.enableDynamicHtlcmax
  let htlcmaxSourcePct ← resolveFloat db values "htlcmax-source-pct" d.htlcmaxSourcePct
  let htlcmaxSinkPct ← resolveFloat db values "htlcmax-sink-pct" d.htlcmaxSinkPct
  let htlcmaxBalancedPct ← resolveFloat db values "htlcmax-balanced-pct" d.htlcmaxBalancedPct
  let paused ← resolveBool db values "paused" d.paused
  let nodeDrainBiasEnabled ← resolveBool db values "node-drain-bias-enabled" d.nodeDrainBiasEnabled
  let nodeDrainBiasMax ← resolveFloat db values "node-drain-bias-max" d.nodeDrainBiasMax
  let receivableRatioTarget ←
    resolveFloat db values "receivable-ratio-target" d.receivableRatioTarget
  let receivableRatioFloor ← resolveFloat db values "receivable-ratio-floor" d.receivableRatioFloor
  let econGovernorFeesEnabled ←
    resolveBool db values "econ-governor-fees-enabled" d.econGovernorFeesEnabled
  let authorityLevel ← resolveStringOpt db values "authority-level" d.authorityLevel
  pure
    { minFeePpm, maxFeePpm, thompsonPriorStdFee, minFeePpmSaturated, feeInterval, flowInterval,
      htlcCongestionThreshold, marketFeeMode, drainFeeDiscountMax, highLiquidityThreshold,
      feeProfile, baseFeeMsat, enableVegasReflex, enableDynamicHtlcmax, htlcmaxSourcePct,
      htlcmaxSinkPct, htlcmaxBalancedPct, paused, nodeDrainBiasEnabled, nodeDrainBiasMax,
      receivableRatioTarget, receivableRatioFloor, econGovernorFeesEnabled, authorityLevel }

structure FeeCfgResolution where
  cfg : ResolvedFeeCfg
  dbQueryFailures : ℕ

def resolveFeeCfgObserved : FeeCfgResolution :=
  let (cfg, progress) := resolveFields db values ⟨0, 0⟩
  ⟨repairCrossed cfg, progress.dbQueryFailures⟩

def resolveFeeCfg : ResolvedFeeCfg := (resolveFeeCfgObserved db values).cfg

end Snapshot

end FeeConfig
