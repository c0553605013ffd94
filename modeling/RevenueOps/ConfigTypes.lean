import RevenueOps.FloatText
import RevenueOps.JsonValue

/-! The typed fields of the configuration: their types, ranges and valid values, and the JSON
scalar of an option value. -/
namespace ConfigTypes

open FloatText
open JsonValue (Json)
open RustText (UnicodeCase)

inductive FieldType where
  | int | float | bool | string
  deriving DecidableEq

inductive OptValue where
  | string (s : String)
  | integer (i : Int64)
  | boolean (b : Bool)
  | stringArray (items : List String)
  | integerArray (items : List Int64)
  deriving DecidableEq

section Table

def fields : List (String × FieldType) :=
  [("db_path", .string), ("flow_interval", .int), ("fee_interval", .int),
    ("rebalance_interval", .int), ("hot_channel_protection_enabled", .bool),
    ("hot_channel_protection_override_peers", .string),
    ("hot_channel_protection_min_velocity", .float),
    ("hot_channel_protection_min_marginal_roi", .float),
    ("hot_channel_protection_profit_budget_pct", .float),
    ("hot_channel_protection_max_chunk_multiplier", .float),
    ("hot_channel_protection_min_cooldown_hours", .float), ("receivable_ratio_target", .float),
    ("receivable_ratio_floor", .float), ("drain_fee_discount_max", .float),
    ("node_drain_bias_enabled", .bool), ("node_drain_bias_max", .float),
    ("enable_dynamic_htlcmax", .bool), ("htlcmax_source_pct", .float),
    ("htlcmax_sink_pct", .float), ("htlcmax_balanced_pct", .float),
    ("econ_shadow_enabled", .bool), ("econ_governor_rebalance_enabled", .bool),
    ("econ_governor_fees_enabled", .bool), ("econ_arbiter_enabled", .bool),
    ("econ_cycle_rebalance_enabled", .bool), ("econ_ev_populated", .bool),
    ("econ_conflict_rules_extended", .bool), ("authority_level", .string),
    ("risk_profile", .string), ("flow_window_days", .int), ("source_threshold", .float),
    ("sink_threshold", .float), ("min_fee_ppm", .int), ("min_fee_ppm_saturated", .int),
    ("max_fee_ppm", .int), ("base_fee_msat", .int), ("base_fee_policy", .string),
    ("neighbor_median_min_competitors", .int), ("market_fee_mode", .string),
    ("fee_profile", .string), ("fee_market_boundary_enabled", .bool),
    ("fee_market_boundary_min_competitors", .int), ("fee_market_boundary_margin_ppm", .int),
    ("fee_market_boundary_margin_ratio", .float),
    ("fee_market_boundary_max_downshift_ratio", .float),
    ("fee_market_boundary_cache_seconds", .int), ("rebalance_min_profit", .int),
    ("rebalance_max_amount", .int), ("low_liquidity_threshold", .float),
    ("high_liquidity_threshold", .float), ("rebalance_cooldown_hours", .int),
    ("rebalance_emergency_local_ratio", .float), ("rebalance_drift_override_ratio", .float),
    ("rebalance_hold_margin", .float), ("pair_fee_cap_ppm", .int),
    ("rebalance_activity_window_seconds", .int), ("rebalance_activity_penalty_coeff", .float),
    ("rebalance_activity_penalty_cap_frac", .float), ("rebalance_utilization_window_days", .int),
    ("rebalance_utilization_floor", .float), ("rebalance_utilization_ceiling", .float),
    ("rebalance_utilization_min_forwards", .int), ("rebalance_size_tiered_targets", .bool),
    ("rebalance_size_reference_percentile", .float),
    ("rebalance_small_channel_band_half_width", .float), ("inbound_fee_estimate_ppm", .int),
    ("estimated_open_cost_sats", .int), ("daily_budget_sats", .int),
    ("growth_budget_enabled", .bool), ("growth_budget_earned_fraction", .float),
    ("growth_budget_experiment_fraction", .float), ("growth_budget_max_extra_sats", .int),
    ("growth_budget_hard_ceiling_sats", .int),
    ("allow_zero_cost_auto_rebalance_when_budget_zero", .bool), ("weekly_budget_sats", .int),
    ("min_wallet_reserve", .int), ("rpc_timeout_seconds", .int),
    ("reservation_timeout_hours", .int), ("htlc_congestion_threshold", .float),
    ("enable_reputation", .bool), ("reputation_decay", .float), ("enable_kelly", .bool),
    ("max_concurrent_jobs", .int), ("askrene_layer", .string), ("rebalance_router", .string),
    ("askrene_layers", .string), ("paused", .bool), ("dry_run", .bool),
    ("enable_vegas_reflex", .bool), ("vegas_decay_rate", .float),
    ("thompson_prior_std_fee", .int), ("capex_reinvestment_rate", .float),
    ("capex_bootstrap_bps", .int), ("capex_bootstrap_max_sats", .int),
    ("capex_grace_days", .int), ("capex_global_envelope_sats", .int),
    ("capex_probability_budget_bonus", .float), ("_version", .int)]

def ranges : List (String × Float × Float) :=
  [("min_fee_ppm", 5.0, 100000.0), ("min_fee_ppm_saturated", 0.0, 1000.0),
    ("max_fee_ppm", 1.0, 100000.0), ("fee_market_boundary_min_competitors", 1.0, 100.0),
    ("fee_market_boundary_margin_ppm", 0.0, 10000.0),
    ("fee_market_boundary_margin_ratio", 0.0, 0.5),
    ("fee_market_boundary_max_downshift_ratio", 0.05, 1.0),
    ("fee_market_boundary_cache_seconds", 10.0, 3600.0), ("daily_budget_sats", 0.0, 10000000.0),
    ("growth_budget_earned_fraction", 0.0, 1.0), ("growth_budget_experiment_fraction", 0.0, 1.0),
    ("growth_budget_max_extra_sats", 0.0, 1000000.0),
    ("growth_budget_hard_ceiling_sats", 0.0, 10000000.0),
    ("weekly_budget_sats", 0.0, 70000000.0), ("receivable_ratio_target", 0.0, 1.0),
    ("receivable_ratio_floor", 0.0, 1.0), ("drain_fee_discount_max", 0.0, 0.5),
    ("node_drain_bias_max", 0.0, 0.5), ("htlcmax_source_pct", 0.01, 1.0),
    ("htlcmax_sink_pct", 0.01, 1.0), ("htlcmax_balanced_pct", 0.01, 1.0),
    ("min_wallet_reserve", 0.0, 100000000.0), ("low_liquidity_threshold", 0.0, 1.0),
    ("high_liquidity_threshold", 0.0, 1.0), ("htlc_congestion_threshold", 0.0, 1.0),
    ("reputation_decay", 0.0, 1.0), ("vegas_decay_rate", 0.0, 1.0),
    ("rpc_timeout_seconds", 1.0, 300.0), ("reservation_timeout_hours", 1.0, 24.0),
    ("thompson_prior_std_fee", 10.0, 500.0), ("flow_interval", 60.0, 86400.0),
    ("fee_interval", 60.0, 86400.0), ("rebalance_interval", 60.0, 86400.0),
    ("max_concurrent_jobs", 1.0, 20.0), ("base_fee_msat", 0.0, 10000.0),
    ("neighbor_median_min_competitors", 2.0, 50.0), ("rebalance_min_profit", 0.0, 1000000.0),
    ("rebalance_max_amount", 10000.0, 100000000.0), ("flow_window_days", 1.0, 365.0),
    ("source_threshold", -1.0, 1.0), ("sink_threshold", -1.0, 1.0),
    ("hot_channel_protection_max_chunk_multiplier", 1.0, 20.0),
    ("hot_channel_protection_min_cooldown_hours", 0.0, 168.0),
    ("hot_channel_protection_min_marginal_roi", 0.0, 10.0),
    ("hot_channel_protection_min_velocity", 0.0, 1.0),
    ("hot_channel_protection_profit_budget_pct", 0.0, 1.0),
    ("inbound_fee_estimate_ppm", 0.0, 5000.0), ("rebalance_cooldown_hours", 1.0, 168.0),
    ("rebalance_emergency_local_ratio", 0.0, 1.0), ("rebalance_drift_override_ratio", 0.0, 1.0),
    ("rebalance_hold_margin", 0.0, 1000.0), ("pair_fee_cap_ppm", 0.0, 100000.0),
    ("rebalance_activity_window_seconds", 60.0, 86400.0),
    ("rebalance_activity_penalty_coeff", 0.0, 1.0),
    ("rebalance_activity_penalty_cap_frac", 0.0, 1.0),
    ("rebalance_utilization_window_days", 1.0, 90.0), ("rebalance_utilization_floor", 0.0, 1.0),
    ("rebalance_utilization_ceiling", 0.0, 1.0),
    ("rebalance_utilization_min_forwards", 0.0, 1000.0),
    ("rebalance_size_reference_percentile", 0.0, 1.0),
    ("rebalance_small_channel_band_half_width", 0.0, 0.5),
    ("estimated_open_cost_sats", 0.0, 1000000.0), ("capex_reinvestment_rate", 0.0, 1.0),
    ("capex_bootstrap_bps", 0.0, 100.0), ("capex_bootstrap_max_sats", 0.0, 10000.0),
    ("capex_grace_days", 0.0, 90.0), ("capex_probability_budget_bonus", 0.0, 1.0),
    ("capex_global_envelope_sats", 0.0, 100000000.0)]

def enums : List (String × List String) :=
  [("fee_profile", ["active", "conservative"]), ("rebalance_router", ["v3"]),
    ("market_fee_mode", ["undercut", "match", "premium", "competition_aware"]),
    ("risk_profile", ["preserve", "conservative", "balanced", "growth", "custom"])]

def boolCasts : List (String × String) :=
  [("hot_channel_protection_enabled", "eq_true"), ("node_drain_bias_enabled", "eq_true"),
    ("enable_dynamic_htlcmax", "eq_true"), ("fee_market_boundary_enabled", "eq_true"),
    ("rebalance_size_tiered_targets", "in_true_1_yes"),
    ("growth_budget_enabled", "in_true_1_yes"),
    ("allow_zero_cost_auto_rebalance_when_budget_zero", "in_true_1_yes"), ("dry_run", "eq_true"),
    ("enable_reputation", "eq_true"), ("enable_kelly", "eq_true"),
    ("enable_vegas_reflex", "eq_true")]

end Table

section Lookups

/-- str::replace of every hyphen. -/
def underscored (s : String) : String :=
  String.ofList (s.toList.map fun c => if c = '-' then '_' else c)

def fieldTypeFor (key : String) : Option FieldType :=
  match fields.lookup key with
  | some ft => some ft
  | none => fields.lookup (underscored key)

def fieldRange (field : String) : Option (Float × Float) := ranges.lookup field

def fieldEnum (field : String) : Option (List String) := enums.lookup field

end Lookups

section Values

def OptValue.toJson : OptValue → Json
  | .string s => .str s
  | .integer i => .int i.toInt
  | .boolean b => .bool b
  | .stringArray items => .arr (items.map .str)
  | .integerArray items => .arr (items.map fun i => .int i.toInt)

def jsonF64 (x : Float) : Json := if x.isFinite then .float x else .null

variable [UnicodeCase]

def pythonStartupBool (field raw : String) : Bool :=
  let cast := ((boolCasts.lookup field) <|> boolCasts.lookup (underscored field)).getD "eq_true"
  let lower := RustText.toLowercase raw
  if cast = "in_true_1_yes" then lower = "true" || lower = "1" || lower = "yes"
  else lower = "true"

def convertValue (fieldType : Option FieldType) (raw : OptValue) : Json :=
  match fieldType, raw with
  | some .float, .string s =>
    match parseF64 s with
    | some f => jsonF64 f
    | none => raw.toJson
  | some .int, .string s =>
    match RustText.parseI64 s with
    | some i => .int i
    | none => raw.toJson
  | some .bool, .string s =>
    let lower := RustText.toLowercase s
    .bool (lower = "true" || lower = "1" || lower = "yes" || lower = "on")
  | _, _ => raw.toJson

def typedValue (field : String) (raw : OptValue) : Json := convertValue (fieldTypeFor field) raw

end Values

end ConfigTypes
