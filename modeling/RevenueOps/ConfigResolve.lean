import RevenueOps.ConfigTypes
import RevenueOps.KeyedDict

/-! How a configuration value is admitted: a persisted override that is out of range is skipped,
an option of the start is clamped. The options are clamped once as a whole map and again where the
fee cycle reads them. -/
namespace ConfigResolve

open ConfigTypes FloatText KeyedTable RustFloat RustNumber
open RustText (UnicodeCase)

section Keys

def selfOnlyKeys : List String := ["observer", "db-path", "observer-db-path"]

def pythonOptionName (key : String) : Option String :=
  if key ∈ selfOnlyKeys then none else some ("revenue-ops-" ++ key)

def fieldNameOverrides : List (String × String) :=
  [("vegas-reflex", "enable_vegas_reflex"), ("vegas-decay", "vegas_decay_rate")]

def dbOverrideKey (key : String) : String := (fieldNameOverrides.lookup key).getD (underscored key)

def immutableKeys : List String := ["dry-run"]

def isImmutableKey (key : String) : Bool := key ∈ immutableKeys

end Keys

section Override

def inRange (field : String) (value : Float) : Bool :=
  match fieldRange field with
  | some (min, max) => decide (min ≤ value) && decide (value ≤ max)
  | none => true

def validateOverride [UnicodeCase] (field raw : String) : Option String :=
  match (fieldTypeFor field).getD .string with
  | .bool => some raw
  | .int => do
    let trimmed := RustText.trim raw
    let parsed ← RustText.parseI64 trimmed
    if inRange field (asF64 parsed) then some trimmed else none
  | .float => do
    let trimmed := RustText.trim raw
    let parsed ← parseF64 trimmed
    if !parsed.isFinite then none else if inRange field parsed then some trimmed else none
  | .string =>
    match fieldEnum field with
    | some valid =>
      let lower := RustText.toLowercase raw
      if valid.any fun v => v = raw || RustText.toLowercase v = lower then some lower else none
    | none => some raw

end Override

section Clamp

def optionValueToString : OptValue → Option String
  | .string s => some s
  | .integer i => some (toString i.toInt)
  | .boolean b => some (if b then "True" else "False")
  | _ => none

/-- The value where the fee cycle reads it, and whether that changed it. -/
def clampStartupNumeric (field : String) (value : OptValue) : OptValue × Bool :=
  match fieldRange field with
  | none => (value, false)
  | some (lo, hi) =>
    match value with
    | .integer raw =>
      let clamped := clampF64 (asF64 raw.toInt) lo hi
      if clamped == asF64 raw.toInt then (value, false)
      else (.integer (Int64.ofInt (asI64 clamped)), true)
    | .string raw =>
      match parseF64 (RustText.trim raw) with
      | none => (value, false)
      | some parsed =>
        let clamped := clampF64 parsed lo hi
        if clamped == parsed then (value, false)
        else
          let whole := fractF64 lo == 0.0 && fractF64 hi == 0.0 && fractF64 parsed == 0.0
          (.string (if whole then toString (asI64 clamped) else displayF64 clamped), true)
    | other => (other, false)

def clampStartupInt (field : String) (value : ℤ) : ℤ :=
  match fieldRange field with
  | some (lo, hi) => max (asI64 (ceilF64 lo)) (min (asI64 (floorF64 hi)) value)
  | none => value

def clampStartupFloat (field : String) (value : Float) : Float :=
  match fieldRange field with
  | some (lo, hi) => maxF64 lo (minF64 hi value)
  | none => value

def clampInPlace (field : String) (value : OptValue) : OptValue :=
  match fieldTypeFor field with
  | some .int =>
    match (optionValueToString value).bind fun raw => RustText.parseI64 (RustText.trim raw) with
    | none => value
    | some parsed =>
      let clamped := clampStartupInt field parsed
      if clamped ≠ parsed then .integer (Int64.ofInt clamped) else value
  | some .float =>
    match (optionValueToString value).bind fun raw => parseF64 (RustText.trim raw) with
    | none => value
    | some parsed =>
      if !parsed.isFinite then value
      else
        let clamped := clampStartupFloat field parsed
        if clamped != parsed then .string (displayF64 clamped) else value
  | _ => value

def clampOption (fullName : String) (value : OptValue) : OptValue :=
  match RustText.stripPrefix fullName "revenue-ops-" with
  | none => value
  | some suffix => clampInPlace (dbOverrideKey suffix) value

def clampStartupOptionMap (values : Dict String OptValue) : Dict String OptValue where
  rows := values.rows.map fun e => (e.1, clampOption e.1 e.2)
  nodup := by
    rw [List.map_map]
    exact values.nodup

def repairCrossedFeeBounds (minFeePpm maxFeePpm : ℤ) : ℤ × ℤ :=
  if maxFeePpm < minFeePpm then (minFeePpm, minFeePpm) else (minFeePpm, maxFeePpm)

end Clamp

end ConfigResolve
