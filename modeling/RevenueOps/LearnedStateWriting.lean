import RevenueOps.KeyedTable
import RevenueOps.LearnedStateCodec

/-! The dictionary that a channel's learned state is written to, and what a start reads back. -/
namespace Thompson

open Arithmetic Mat3 PyJson RustFloat RustNumber KeyedTable
open Pid (Logarithms)

section Write

def numValue (v : Float) (isInt : Bool) : OValue := if isInt then .int (asI64 v) else .float v

def v3ToValue (v : V3 Float) : OValue := .arr [.float (v 0), .float (v 1), .float (v 2)]

def m3ToValue (m : M3 Float) : OValue := .arr [v3ToValue (m 0), v3ToValue (m 1), v3ToValue (m 2)]

def observationToValue (o : Observation Float) : OValue :=
  .arr ([numValue o.fee o.feeIsInt, .float o.revenueRate, .float o.weight, .int o.ts,
    .str o.timeBucket] ++ (o.flag.map OValue.str).toList ++ o.extra)

def ctxPosteriorToValue (c : CtxPosterior Float) : OValue :=
  .arr [.float c.mean, .float c.precision, .int c.count, .int c.lastUpdate]

def nudgeToValue (n : Nudge Float) : OValue := .arr [.float n.target, .float n.weight, .int n.ts]

variable [F64Functions Float]

/-- The keys that a state is always written with, in their order. -/
def knownEntries (s : GaussianThompsonState Float) : List (String × OValue) :=
  [("prior_mean_fee", numValue s.priorMeanFee s.priorMeanFeeIsInt),
    ("prior_std_fee", numValue s.priorStdFee s.priorStdFeeIsInt),
    ("observations", .arr (s.observations.map observationToValue)),
    ("posterior_mean", numValue s.posteriorMean s.posteriorMeanIsInt),
    ("posterior_std", numValue s.posteriorStd s.posteriorStdIsInt),
    ("posterior_variance", .float (F64Functions.powf s.posteriorStd 2.0)),
    ("posterior_coeffs", v3ToValue s.posteriorCoeffs),
    ("posterior_precision", m3ToValue s.posteriorPrecision),
    ("noise_variance", .float s.noiseVariance), ("_prior_coeffs", v3ToValue s.priorCoeffs),
    ("_prior_precision", m3ToValue s.priorPrecision), ("_last_fee_min", .float s.lastFeeMin),
    ("_last_fee_max", .float s.lastFeeMax),
    ("contextual_posteriors",
      .obj (s.contextualPosteriors.map fun e => (e.1, ctxPosteriorToValue e.2))),
    ("posterior_bias", .arr (s.posteriorBias.map nudgeToValue)),
    ("charged_fee_mean", .float s.chargedFeeMean),
    ("zero_revenue_streak", .int s.zeroRevenueStreak),
    ("zero_run_start_fee", .float s.zeroRunStartFee),
    ("zero_run_start_ts", .int s.zeroRunStartTs), ("positive_rate_ref", .float s.positiveRateRef),
    ("positive_rate_ref_ts", .int s.positiveRateRefTs),
    ("meaningful_gap_ema_hours", .float s.meaningfulGapEmaHours),
    ("last_meaningful_ts", .int s.lastMeaningfulTs),
    ("last_upward_probe_ts", .int s.lastUpwardProbeTs), ("weight_scheme", .str weightScheme),
    ("exploration_boost", .float s.explorationBoost), ("last_sampled_fee", .int s.lastSampledFee),
    ("last_sample_time", .int s.lastSampleTime), ("reseeded_at", .int s.reseededAt)]

def gtsToDict (s : GaussianThompsonState Float) : OValue := .obj (knownEntries s ++ s.extra)

end Write

section Lookups

/-- An entry of a dictionary without repeated keys is what its key looks up. -/
theorem get_of_nodup {entries more : List (String × OValue)} (h : (entries.map Prod.fst).Nodup)
    {i : ℕ} {key : String} {v : OValue} (hi : entries[i]? = some (key, v)) :
    (OValue.obj (entries ++ more)).get key = some v := by
  let t : Table (String × OValue) String Prod.fst := ⟨entries, h⟩
  have hfind : t.find? key = some (key, v) :=
    find_eq_some_iff.mpr ⟨List.mem_of_getElem? hi, rfl⟩
  change ((entries ++ more).find? fun e => e.1 = key).map Prod.snd = some v
  rw [List.find?_append, show (entries.find? fun e => e.1 = key) = _ from hfind]
  rfl

theorem knownKeys_nodup : knownKeys.Nodup := by decide

variable [F64Functions Float]

theorem get_known (s : GaussianThompsonState Float) (i : ℕ) {key : String} {v : OValue}
    (hi : (knownEntries s)[i]? = some (key, v)) : (gtsToDict s).get key = some v :=
  get_of_nodup (show ((knownEntries s).map Prod.fst).Nodup from knownKeys_nodup) hi

end Lookups

section Parts

variable {d : OValue} {key : String}

def Tagged (v : Float) (isInt : Bool) : Prop := isInt = true → asF64 (asI64 v) = v

def Magnitude (v : Float) : Prop := v.isFinite = true ∧ 0.0 ≤ v

instance {v : Float} {isInt : Bool} : Decidable (Tagged v isInt) :=
  inferInstanceAs (Decidable (_ → _))

instance {v : Float} : Decidable (Magnitude v) := inferInstanceAs (Decidable (_ ∧ _))

/-- Without a flag, what follows the bucket does not read as one. -/
structure Observation.Plain (o : Observation Float) : Prop where
  fee : Tagged o.fee o.feeIsInt
  flag : o.flag = none → o.extra.head?.bind OValue.asStr = none

structure Nudge.Plain (n : Nudge Float) : Prop where
  target : n.target.isFinite = true
  weight : n.weight.isFinite = true
  positive : 0.0 < n.weight
  nonneg : 0.0 ≤ n.target

theorem asF64_numValue {v : Float} {isInt : Bool} (h : Tagged v isInt) :
    (numValue v isInt).asF64 = some v ∧ (numValue v isInt).isInt = isInt := by
  cases isInt with
  | false => exact ⟨rfl, rfl⟩
  | true => exact ⟨congrArg some (h rfl), rfl⟩

theorem numberField_written {v default : Float} {isInt defaultIsInt : Bool} (h : Tagged v isInt)
    (hget : d.get key = some (numValue v isInt)) :
    numberField d key default defaultIsInt = (v, isInt) := by
  rw [numberField, hget]
  cases isInt with
  | false => rfl
  | true => exact congrArg (·, true) (h rfl)

theorem floatField_written {v : Float} (hget : d.get key = some (.float v)) :
    floatField d key = v := by
  rw [floatField, hget]
  rfl

theorem magnitudeField_written {v : Float} (h : Magnitude v)
    (hget : d.get key = some (.float v)) : magnitudeField d key = v := by
  rw [magnitudeField, hget]
  change (Option.filter _ (some v)).getD 0.0 = v
  rw [Option.filter_some, if_pos (by simp [h.1, h.2])]
  rfl

theorem countField_written {n : ℤ} (h : 0 ≤ n) (hget : d.get key = some (.int n)) :
    countField d key = n := by
  rw [countField, hget]
  exact max_eq_left h

theorem plainInt_written {n : ℤ} (hget : d.get key = some (.int n)) : plainInt d key = n := by
  rw [plainInt, hget]
  rfl

theorem vec_eta {α : Type} (v : Fin 3 → α) : ![v 0, v 1, v 2] = v :=
  funext fun
    | 0 => rfl
    | 1 => rfl
    | 2 => rfl

theorem parseV3Strict_written (v : V3 Float) : parseV3Strict (some (v3ToValue v)) = some v :=
  congrArg some (vec_eta v)

theorem parseM3Pd_written {m : M3 Float} (h : 0.0 < m 0 0 ∧ 0.0 < m 1 1 ∧ 0.0 < m 2 2) :
    parseM3Pd (some (m3ToValue m)) = some m := by
  have hrow : ∀ v : V3 Float, parseRow (v3ToValue v) = some v :=
    fun v => congrArg some (vec_eta v)
  change (do
    let a ← parseRow (v3ToValue (m 0))
    let b ← parseRow (v3ToValue (m 1))
    let c ← parseRow (v3ToValue (m 2))
    if 0.0 < a 0 ∧ 0.0 < b 1 ∧ 0.0 < c 2 then some ![a, b, c] else none) = some m
  rw [hrow, hrow, hrow]
  simp only [Option.bind_eq_bind, Option.bind_some]
  rw [if_pos h, vec_eta]

theorem convertNudge_written {n : Nudge Float} (h : n.Plain) :
    convertNudge (nudgeToValue n) = some n :=
  if_pos ⟨h.target, h.weight, h.positive, h.nonneg⟩

variable [Logarithms Float]

theorem convertObservation_written {o : Observation Float} (h : o.Plain) :
    convertObservation false (observationToValue o) = some o := by
  obtain ⟨fee, feeIsInt, revenueRate, weight, ts, timeBucket, flag, extra⟩ := o
  obtain ⟨hfee, hint⟩ : (numValue fee feeIsInt).asF64 = some fee ∧ _ := asF64_numValue h.fee
  have hflag : flag = none → extra.head?.bind OValue.asStr = none := h.flag
  simp only [observationToValue]
  generalize numValue fee feeIsInt = number at hfee hint
  have hfloat : ∀ x, (OValue.float x).asF64 = some x := fun _ => rfl
  have hwhole : ∀ i, (OValue.int i).asI64 = some i := fun _ => rfl
  have htext : ∀ t, (OValue.str t).asStr = some t := fun _ => rfl
  cases flag with
  | some flag => simp [convertObservation, OValue.asArr, hfee, hint, hfloat, hwhole, htext]
  | none =>
    cases extra with
    | nil => simp [convertObservation, OValue.asArr, hfee, hint, hfloat, hwhole, htext]
    | cons v rest =>
      have hv : v.asStr = none := hflag rfl
      simp [convertObservation, OValue.asArr, hfee, hint, hfloat, hwhole, htext, hv]

end Parts

section RoundTrip

theorem filterMap_written {α : Type} {xs : List α} {write : α → OValue} {read : OValue → Option α}
    (h : ∀ x ∈ xs, read (write x) = some x) : (xs.map write).filterMap read = xs := by
  rw [List.filterMap_map]
  exact (List.filterMap_congr h).trans List.filterMap_some

theorem bias_written {bias : List (Nudge Float)} (hlength : bias.length ≤ maxBiasNudges)
    (h : ∀ n ∈ bias, n.Plain) : convertPosteriorBias (bias.map nudgeToValue) = bias := by
  rw [convertPosteriorBias, List.length_map, Nat.sub_eq_zero_of_le hlength, List.drop_zero]
  exact filterMap_written fun n hn => convertNudge_written (h n hn)

variable [F64Functions Float]

theorem contexts_written {cs : List (String × CtxPosterior Float)}
    (h : ∀ e ∈ cs, e.2.wasLegacy3tuple = false) :
    (cs.map fun e => (e.1, ctxPosteriorToValue e.2)).map (fun e => (e.1, convertCtxPosterior e.2)) =
      cs := by
  rw [List.map_map]
  refine (List.map_congr_left fun e he => ?_).trans (List.map_id _)
  obtain ⟨k, mean, precision, count, lastUpdate, legacy⟩ := e
  cases h _ he
  rfl

theorem extra_written {s : GaussianThompsonState Float} (h : ∀ e ∈ s.extra, e.1 ∉ knownKeys) :
    (knownEntries s ++ s.extra).filter (fun e => !knownKeys.contains e.1) = s.extra := by
  have hknown : ∀ e ∈ knownEntries s, e.1 ∈ knownKeys :=
    fun e he => List.mem_map_of_mem (f := Prod.fst) he
  rw [List.filter_append, List.filter_eq_nil_iff.mpr fun e he => by simp [hknown e he],
    List.filter_eq_self.mpr fun e he => by simp [h e he], List.nil_append]

variable [Logarithms Float]

structure Persistable (s : GaussianThompsonState Float) : Prop where
  priorMeanFee : Tagged s.priorMeanFee s.priorMeanFeeIsInt
  priorStdFee : Tagged s.priorStdFee s.priorStdFeeIsInt
  observations : ∀ o ∈ s.observations, o.Plain
  posteriorMean : Tagged s.posteriorMean s.posteriorMeanIsInt
  posteriorStd : Tagged s.posteriorStd s.posteriorStdIsInt
  posteriorPrecision : 0.0 < s.posteriorPrecision 0 0 ∧ 0.0 < s.posteriorPrecision 1 1 ∧
    0.0 < s.posteriorPrecision 2 2
  noiseVariance : maxF64 s.noiseVariance 10.0 = s.noiseVariance
  priorPrecision : 0.0 < s.priorPrecision 0 0 ∧ 0.0 < s.priorPrecision 1 1 ∧
    0.0 < s.priorPrecision 2 2
  contexts : ∀ e ∈ s.contextualPosteriors, e.2.wasLegacy3tuple = false
  biasLength : s.posteriorBias.length ≤ maxBiasNudges
  bias : ∀ n ∈ s.posteriorBias, n.Plain
  chargedFeeMean : Magnitude s.chargedFeeMean
  zeroRevenueStreak : 0 ≤ s.zeroRevenueStreak
  zeroRunStartFee : Magnitude s.zeroRunStartFee
  zeroRunStartTs : 0 ≤ s.zeroRunStartTs
  positiveRateRef : Magnitude s.positiveRateRef
  positiveRateRefTs : 0 ≤ s.positiveRateRefTs
  meaningfulGapEmaHours : Magnitude s.meaningfulGapEmaHours
  lastMeaningfulTs : 0 ≤ s.lastMeaningfulTs
  lastUpwardProbeTs : 0 ≤ s.lastUpwardProbeTs
  boostFinite : s.explorationBoost.isFinite = true
  boostClamped :
    clampF64 s.explorationBoost explorationBoostMin explorationBoostMax = s.explorationBoost
  reseededAt : 0 ≤ s.reseededAt
  extra : ∀ e ∈ s.extra, e.1 ∉ knownKeys

/-- What a start reads back from the written state is the state. -/
theorem gtsFromDict_gtsToDict {s : GaussianThompsonState Float} (h : Persistable s) :
    gtsFromDict (gtsToDict s) = s := by
  have hobservations :=
    filterMap_written fun o ho => convertObservation_written (h.observations o ho)
  have hlegacy : decide (((gtsToDict s).get "weight_scheme").bind OValue.asStr ≠
      some weightScheme) = false := by
    rw [get_known s 24 rfl]
    rfl
  rw [gtsFromDict, hlegacy, numberField_written h.priorMeanFee (get_known s 0 rfl),
    numberField_written h.priorStdFee (get_known s 1 rfl), get_known s 2 rfl,
    numberField_written h.posteriorMean (get_known s 3 rfl),
    numberField_written h.posteriorStd (get_known s 4 rfl), get_known s 6 rfl,
    parseV3Strict_written, get_known s 7 rfl, parseM3Pd_written h.posteriorPrecision,
    get_known s 8 rfl, get_known s 9 rfl, parseV3Strict_written, get_known s 10 rfl,
    parseM3Pd_written h.priorPrecision, floatField_written (get_known s 11 rfl),
    floatField_written (get_known s 12 rfl), get_known s 13 rfl, get_known s 14 rfl,
    magnitudeField_written h.chargedFeeMean (get_known s 15 rfl),
    countField_written h.zeroRevenueStreak (get_known s 16 rfl),
    magnitudeField_written h.zeroRunStartFee (get_known s 17 rfl),
    countField_written h.zeroRunStartTs (get_known s 18 rfl),
    magnitudeField_written h.positiveRateRef (get_known s 19 rfl),
    countField_written h.positiveRateRefTs (get_known s 20 rfl),
    magnitudeField_written h.meaningfulGapEmaHours (get_known s 21 rfl),
    countField_written h.lastMeaningfulTs (get_known s 22 rfl),
    countField_written h.lastUpwardProbeTs (get_known s 23 rfl), get_known s 25 rfl,
    plainInt_written (get_known s 26 rfl), plainInt_written (get_known s 27 rfl),
    countField_written h.reseededAt (get_known s 28 rfl)]
  have hboost : (Option.filter Float.isFinite (some s.explorationBoost)).getD 1.0 =
      s.explorationBoost := by
    rw [Option.filter_some, if_pos h.boostFinite]
    rfl
  change { s with
    observations := (s.observations.map observationToValue).filterMap (convertObservation false)
    noiseVariance := maxF64 s.noiseVariance 10.0
    contextualPosteriors := (s.contextualPosteriors.map fun e => (e.1, ctxPosteriorToValue e.2)).map
      fun e => (e.1, convertCtxPosterior e.2)
    posteriorBias := convertPosteriorBias (s.posteriorBias.map nudgeToValue)
    explorationBoost := clampF64 ((Option.filter Float.isFinite (some s.explorationBoost)).getD 1.0)
      explorationBoostMin explorationBoostMax
    extra := (knownEntries s ++ s.extra).filter fun e => !knownKeys.contains e.1 } = s
  rw [hobservations, h.noiseVariance, contexts_written h.contexts,
    bias_written h.biasLength h.bias, hboost, h.boostClamped, extra_written h.extra]

end RoundTrip

section Learned

/-- A fresh state with one observation, one context, one nudge and a key of a later version. -/
def learned : GaussianThompsonState Float :=
  { GaussianThompsonState.default with
    observations := [⟨120.0, true, 3.5, 1.0, 1700000000, "normal", none, []⟩]
    contextualPosteriors := [("balanced:normal:P", ⟨110.0, 0.01, 4, 1700000000, false⟩)]
    posteriorBias := [⟨90.0, 0.5, 1700000100⟩]
    extra := [("regime", .str "calm")] }

theorem learned_persistable : Persistable learned := by
  constructor
  case observations =>
    intro o ho
    obtain rfl := List.mem_singleton.mp ho
    exact ⟨by decide +kernel, fun _ => rfl⟩
  case contexts =>
    intro e he
    obtain rfl := List.mem_singleton.mp he
    rfl
  case bias =>
    intro n hn
    obtain rfl := List.mem_singleton.mp hn
    constructor <;> decide +kernel
  all_goals decide +kernel

theorem learned_survives : @gtsFromDict _ ⟨id, id⟩ (gtsToDict learned) = learned :=
  @gtsFromDict_gtsToDict _ ⟨id, id⟩ _ learned_persistable

end Learned

end Thompson
