import RevenueOps.FeeConfig
import RevenueOps.StartupClamps

/-! Whatever the overrides and the options are, the resolved configuration is in its ranges and
not crossed. The second clamp of an option is what keeps it there. -/
namespace FeeConfig

open Binary64 ConfigResolve ConfigTypes FloatText KeyedTable RustFloat RustNumber
open JsonValue (Json)
open RustText (UnicodeCase)

section Typed

variable [UnicodeCase] {field s : String} {value : OptValue} {x lo hi : Float} {a b n : ℤ}

omit [UnicodeCase] in
theorem inRange_iff (h : fieldRange field = some (lo, hi)) :
    inRange field x = true ↔ lo ≤ x ∧ x ≤ hi := by
  rw [inRange, h]
  simp

omit [UnicodeCase] in
theorem inRange_whole_iff (h : fieldRange field = some (lo, hi)) (hr : WholeRange lo hi a b) :
    inRange field (asF64 n) = true ↔ a ≤ n ∧ n ≤ b := by
  obtain ⟨v, hv, hround⟩ := denotes_asF64 n
  rw [inRange_iff h, hr.mem_iff hv hround]

omit [UnicodeCase] in
theorem asI64_int {i : ℤ} (h : (Json.int i).asI64 = some n) : i = n := by
  simp only [Json.asI64] at h
  split at h
  · exact Option.some.inj h
  · cases h

theorem typed_int_string (htype : fieldTypeFor field = some .int)
    (h : (typedValue field (.string s)).asI64 = some n) : RustText.parseI64 s = some n := by
  rw [typedValue, htype, convertValue] at h
  cases hs : RustText.parseI64 s with
  | none =>
    rw [hs] at h
    cases h
  | some i =>
    rw [hs] at h
    exact congrArg some (asI64_int h)

theorem typed_float_string (htype : fieldTypeFor field = some .float)
    (h : EconCycle.asF64 (typedValue field (.string s)) = some x) :
    parseF64 s = some x ∧ x.isFinite = true := by
  rw [typedValue, htype, convertValue] at h
  cases hs : parseF64 s with
  | none =>
    rw [hs] at h
    cases h
  | some y =>
    rw [hs] at h
    simp only [jsonF64] at h
    split at h
    · rename_i hfinite
      cases h
      exact ⟨rfl, hfinite⟩
    · cases h

end Typed

section Option

variable [UnicodeCase] {field : String} {value : OptValue} {x lo hi : Float} {a b n : ℤ}

theorem reread_int_inRange (htype : fieldTypeFor field = some .int)
    (hrange : fieldRange field = some (lo, hi)) (hr : WholeRange lo hi a b)
    (h : (typedValue field (reread field value)).asI64 = some n) : a ≤ n ∧ n ≤ b := by
  have hordered := hr.ordered
  cases value with
  | string s =>
    cases hs : parseF64 (RustText.trim s) with
    | none =>
      rw [reread_string_none hrange hs] at h
      have hparse := typed_int_string htype h
      obtain ⟨y, -, hy, -⟩ := (signedDigits_of_parseI64 hparse).parseF64
      rw [trim_of_parseI64 hparse, hy] at hs
      cases hs
    | some y =>
      rw [reread_string hrange hs] at h
      split at h
      · rename_i hin
        have hparse := typed_int_string htype h
        rw [trim_of_parseI64 hparse] at hs
        exact (clampF64_parsed_iff hr hparse hs).mp hin
      · rename_i hout
        have hparse := typed_int_string htype h
        cases hnan : y.isNaN with
        | true =>
          rw [rendered_of_isNaN hnan] at hparse
          have hword : RustText.parseI64 "NaN" = none := by decide
          rw [hword] at hparse
          cases hparse
        | false =>
          rcases hr.rendered_text hnan hout with htext | htext
          · rw [hparse] at htext
            have := Option.some.inj htext
            omega
          · rw [hparse] at htext
            have := Option.some.inj htext
            omega
  | integer k =>
    rw [reread_integer hrange] at h
    obtain ⟨v, hv, hround⟩ := denotes_asF64 k.toInt
    split at h
    · rename_i hin
      rw [typedValue, htype] at h
      obtain rfl := asI64_int h
      exact (hr.mem_iff hv hround).mp
        ((clampF64_beq_iff hv hr.low.denotes hr.high.denotes).mp hin)
    · rename_i hout
      rw [typedValue, htype] at h
      obtain rfl := asI64_int h
      have hlow := hr.low.small
      have hhigh := hr.high.small
      rcases clampF64_bound hv.isNaN hout with hc | hc
      · rw [hc, hr.low.cast, toInt_ofInt_small hlow]
        omega
      · rw [hc, hr.high.cast, toInt_ofInt_small hhigh]
        omega
  | boolean c =>
    have hsame : reread field (.boolean c) = .boolean c := by
      simp only [reread, clampStartupNumeric, hrange]
    rw [hsame, typedValue, htype] at h
    cases h
  | stringArray items =>
    have hsame : reread field (.stringArray items) = .stringArray items := by
      simp only [reread, clampStartupNumeric, hrange]
    rw [hsame, typedValue, htype] at h
    cases h
  | integerArray items =>
    have hsame : reread field (.integerArray items) = .integerArray items := by
      simp only [reread, clampStartupNumeric, hrange]
    rw [hsame, typedValue, htype] at h
    cases h

omit [UnicodeCase] in
theorem clampInPlace_float (htype : fieldTypeFor field = some .float) :
    clampInPlace field value = value ∨ ∃ s, clampInPlace field value = .string s := by
  simp only [clampInPlace, htype]
  split
  · exact .inl rfl
  · split
    · exact .inl rfl
    · split
      · exact .inr ⟨_, rfl⟩
      · exact .inl rfl

theorem reread_float_inRange (htype : fieldTypeFor field = some .float)
    (hrange : fieldRange field = some (lo, hi)) (hr : RealRange lo hi)
    (h : EconCycle.asF64 (typedValue field (reread field (clampInPlace field value))) = some x) :
    lo ≤ x ∧ x ≤ hi := by
  have htext : ∀ {s}, EconCycle.asF64 (typedValue field (reread field (.string s))) = some x →
      lo ≤ x ∧ x ≤ hi := by
    intro s h
    cases hs : parseF64 (RustText.trim s) with
    | none =>
      rw [reread_string_none hrange hs] at h
      obtain ⟨hparse, -⟩ := typed_float_string htype h
      rw [trim_of_parseF64 hparse, hparse] at hs
      cases hs
    | some y =>
      rw [reread_string hrange hs] at h
      split at h
      · rename_i hin
        obtain ⟨hparse, hfinite⟩ := typed_float_string htype h
        rw [trim_of_parseF64 hparse, hparse] at hs
        cases hs
        obtain ⟨r, hv⟩ := isFinite_iff.mp hfinite
        exact (hr.beq_iff hv).mp hin
      · rename_i hout
        obtain ⟨hparse, hfinite⟩ := typed_float_string htype h
        cases hnan : y.isNaN with
        | true =>
          have hword := parseF64_NaN
          rw [rendered_of_isNaN hnan] at hparse
          rw [trim_of_parseF64 hparse, hparse] at hword
          cases hword
          exact absurd hfinite (by decide)
        | false =>
          rcases hr.rendered_text hnan hout with hbound | hbound
          · rw [hparse] at hbound
            cases hbound
            exact hr.bounds_in.1
          · rw [hparse] at hbound
            cases hbound
            exact hr.bounds_in.2
  rcases clampInPlace_float htype with hsame | ⟨s, hs⟩
  · rw [hsame] at h
    cases value with
    | string s => exact htext h
    | integer k =>
      have hin := clampInPlace_integer htype hrange hr hsame
      obtain ⟨w, hw, -⟩ := denotes_asF64 k.toInt
      obtain ⟨r, hfinite⟩ := isFinite_iff.mp (hr.isFinite hin)
      rw [reread_integer hrange, if_pos ((hr.beq_iff hfinite).mpr hin), typedValue, htype] at h
      cases h
      exact hin
    | boolean c =>
      have hkept : reread field (.boolean c) = .boolean c := by
        simp only [reread, clampStartupNumeric, hrange]
      rw [hkept, typedValue, htype] at h
      cases h
    | stringArray items =>
      have hkept : reread field (.stringArray items) = .stringArray items := by
        simp only [reread, clampStartupNumeric, hrange]
      rw [hkept, typedValue, htype] at h
      cases h
    | integerArray items =>
      have hkept : reread field (.integerArray items) = .integerArray items := by
        simp only [reread, clampStartupNumeric, hrange]
      rw [hkept, typedValue, htype] at h
      cases h
  · rw [hs] at h
    exact htext h

end Option

section Layers

variable [UnicodeCase] {field suffix t raw : String} {value : OptValue} {x : Float} {n : ℤ}

inductive Layered (field : String) : OptValue → Prop where
  | override {raw t : String} (h : validateOverride field raw = some t) : Layered field (.string t)
  | startup (value : OptValue) : Layered field (reread field (clampInPlace field value))

theorem validateOverride_int (htype : fieldTypeFor field = some .int)
    (h : validateOverride field raw = some t) (hn : RustText.parseI64 t = some n) :
    inRange field (asF64 n) = true := by
  rw [validateOverride, htype] at h
  simp only [Option.getD_some, Option.bind_eq_bind, Option.bind_eq_some_iff] at h
  obtain ⟨k, hk, hrange⟩ := h
  split at hrange
  · rename_i hin
    cases hrange
    rw [hk] at hn
    cases hn
    exact hin
  · cases hrange

theorem validateOverride_float (htype : fieldTypeFor field = some .float)
    (h : validateOverride field raw = some t) (hx : parseF64 t = some x) :
    inRange field x = true := by
  rw [validateOverride, htype] at h
  simp only [Option.getD_some, Option.bind_eq_bind, Option.bind_eq_some_iff] at h
  obtain ⟨y, hy, hrange⟩ := h
  split at hrange
  · cases hrange
  · split at hrange
    · rename_i hin
      cases hrange
      rw [hy] at hx
      cases hx
      exact hin
    · cases hrange

theorem Layered.int (h : Layered field value) (htype : fieldTypeFor field = some .int)
    (hn : (typedValue field value).asI64 = some n) : inRange field (asF64 n) = true := by
  cases h with
  | override h => exact validateOverride_int htype h (typed_int_string htype hn)
  | startup value =>
    cases hrange : fieldRange field with
    | none => rw [inRange, hrange]
    | some range =>
      obtain ⟨lo, hi⟩ := range
      rcases range_cases hrange with ⟨-, a, b, hr⟩ | ⟨hfloat, -⟩
      · exact (inRange_whole_iff hrange hr).mpr (reread_int_inRange htype hrange hr hn)
      · rw [htype] at hfloat
        cases hfloat

theorem Layered.float (h : Layered field value) (htype : fieldTypeFor field = some .float)
    (hx : EconCycle.asF64 (typedValue field value) = some x) : inRange field x = true := by
  cases h with
  | override h => exact validateOverride_float htype h (typed_float_string htype hx).1
  | startup value =>
    cases hrange : fieldRange field with
    | none => rw [inRange, hrange]
    | some range =>
      obtain ⟨lo, hi⟩ := range
      rcases range_cases hrange with ⟨hint, -⟩ | ⟨-, hr⟩
      · rw [htype] at hint
        cases hint
      · exact (inRange_iff hrange).mpr (reread_float_inRange htype hrange hr hx)

end Layers

section Returns

variable {α β : Type} {m : Resolve α} {f : α → Resolve β} {P : α → Prop} {Q : β → Prop}

def Returns (m : Resolve α) (P : α → Prop) : Prop := ∀ p, P (m p).1

theorem Returns.pure {a : α} (h : P a) : Returns (Pure.pure a) P := fun _ => h

theorem Returns.any : Returns m fun _ => True := fun _ => trivial

theorem Returns.bind (hm : Returns m P) (hf : ∀ a, P a → Returns (f a) Q) :
    Returns (m >>= f) Q := fun p => hf _ (hm p) _

end Returns

section Resolved

variable [UnicodeCase] (db : Option Database) (options : Dict String OptValue)

theorem dbLayer_returns (suffix : String) :
    Returns (dbLayer db suffix) fun raw =>
      ∀ t, raw = some t → ∃ r, validateOverride (dbOverrideKey suffix) r = some t := by
  unfold dbLayer
  split
  · exact .pure fun t h => by cases h
  · split
    · exact .pure fun t h => by cases h
    · refine Returns.any.bind ?_
      rintro (e | raw) -
      · exact Returns.any.bind fun _ _ => .pure fun t h => by cases h
      · refine .pure fun t h => ?_
        obtain ⟨r, -, hr⟩ := Option.bind_eq_some_iff.mp h
        exact ⟨r, hr⟩

theorem pythonLayer_layered {suffix : String} {value : OptValue}
    (h : pythonLayer (clampStartupOptionMap options) suffix = some value) :
    Layered (dbOverrideKey suffix) value := by
  rw [pythonLayer] at h
  split at h
  · cases h
  · rw [pythonOptionName] at h
    split at h
    · cases h
    · simp only [Option.bind_eq_bind, Option.bind_some, get_clampStartupOptionMap,
        Option.bind_eq_some_iff, Option.map_eq_some_iff] at h
      obtain ⟨clamped, ⟨v, -, rfl⟩, hvalue⟩ := h
      cases hvalue
      exact .startup v

theorem resolveRaw_returns (suffix : String) :
    Returns (resolveRaw db (clampStartupOptionMap options) suffix) fun raw =>
      ∀ value, raw = some value → Layered (dbOverrideKey suffix) value := by
  rw [resolveRaw]
  refine (dbLayer_returns db suffix).bind ?_
  rintro (- | t) hdb
  · exact .pure fun value h => pythonLayer_layered options h
  · refine .pure fun value h => ?_
    obtain ⟨r, hr⟩ := hdb t rfl
    cases h
    exact .override hr

theorem resolveInt_returns {suffix : String} {default : ℤ}
    (htype : fieldTypeFor (dbOverrideKey suffix) = some .int)
    (hdefault : inRange (dbOverrideKey suffix) (asF64 default) = true) :
    Returns (resolveInt db (clampStartupOptionMap options) suffix default) fun n =>
      inRange (dbOverrideKey suffix) (asF64 n) = true := by
  rw [resolveInt]
  refine (resolveRaw_returns db options suffix).bind ?_
  rintro (- | value) hraw
  · exact .pure hdefault
  · apply Returns.pure
    rw [typedOr]
    cases hn : (typedValue (dbOverrideKey suffix) value).asI64 with
    | none => exact hdefault
    | some n => exact (hraw value rfl).int htype hn

theorem resolveFloat_returns {suffix : String} {default : Float}
    (htype : fieldTypeFor (dbOverrideKey suffix) = some .float)
    (hdefault : inRange (dbOverrideKey suffix) default = true) :
    Returns (resolveFloat db (clampStartupOptionMap options) suffix default) fun x =>
      inRange (dbOverrideKey suffix) x = true := by
  rw [resolveFloat]
  refine (resolveRaw_returns db options suffix).bind ?_
  rintro (- | value) hraw
  · exact .pure hdefault
  · apply Returns.pure
    rw [typedOr]
    cases hx : EconCycle.asF64 (typedValue (dbOverrideKey suffix) value) with
    | none => exact hdefault
    | some x => exact (hraw value rfl).float htype hx

def ResolvedFeeCfg.numbers (cfg : ResolvedFeeCfg) : List (String × Float) :=
  [("min_fee_ppm", asF64 cfg.minFeePpm), ("max_fee_ppm", asF64 cfg.maxFeePpm),
    ("thompson_prior_std_fee", asF64 cfg.thompsonPriorStdFee),
    ("min_fee_ppm_saturated", asF64 cfg.minFeePpmSaturated),
    ("fee_interval", asF64 cfg.feeInterval), ("flow_interval", asF64 cfg.flowInterval),
    ("htlc_congestion_threshold", cfg.htlcCongestionThreshold),
    ("drain_fee_discount_max", cfg.drainFeeDiscountMax),
    ("high_liquidity_threshold", cfg.highLiquidityThreshold),
    ("base_fee_msat", asF64 cfg.baseFeeMsat), ("htlcmax_source_pct", cfg.htlcmaxSourcePct),
    ("htlcmax_sink_pct", cfg.htlcmaxSinkPct), ("htlcmax_balanced_pct", cfg.htlcmaxBalancedPct),
    ("node_drain_bias_max", cfg.nodeDrainBiasMax),
    ("receivable_ratio_target", cfg.receivableRatioTarget),
    ("receivable_ratio_floor", cfg.receivableRatioFloor)]

def ResolvedFeeCfg.InRange (cfg : ResolvedFeeCfg) : Prop :=
  ∀ e ∈ cfg.numbers, inRange e.1 e.2 = true

theorem resolveFields_returns :
    Returns (resolveFields db (clampStartupOptionMap options)) ResolvedFeeCfg.InRange := by
  unfold resolveFields
  refine (resolveInt_returns db options rfl (by decide)).bind fun minFeePpm hMin => ?_
  refine (resolveInt_returns db options rfl (by decide)).bind fun maxFeePpm hMax => ?_
  refine (resolveInt_returns db options rfl (by decide)).bind fun std hStd => ?_
  refine (resolveInt_returns db options rfl (by decide)).bind fun saturated hSaturated => ?_
  refine (resolveInt_returns db options rfl (by decide)).bind fun feeInterval hFee => ?_
  refine (resolveInt_returns db options rfl (by decide)).bind fun flowInterval hFlow => ?_
  refine (resolveFloat_returns db options rfl (by decide)).bind fun congestion hCongestion => ?_
  refine Returns.any.bind fun marketFeeMode _ => ?_
  refine (resolveFloat_returns db options rfl (by decide)).bind fun discount hDiscount => ?_
  refine (resolveFloat_returns db options rfl (by decide)).bind fun liquidity hLiquidity => ?_
  refine Returns.any.bind fun feeProfile _ => ?_
  refine (resolveInt_returns db options rfl (by decide)).bind fun baseFee hBase => ?_
  refine Returns.any.bind fun enableVegasReflex _ => ?_
  refine Returns.any.bind fun enableDynamicHtlcmax _ => ?_
  refine (resolveFloat_returns db options rfl (by decide)).bind fun source hSource => ?_
  refine (resolveFloat_returns db options rfl (by decide)).bind fun sink hSink => ?_
  refine (resolveFloat_returns db options rfl (by decide)).bind fun balanced hBalanced => ?_
  refine Returns.any.bind fun paused _ => ?_
  refine Returns.any.bind fun nodeDrainBiasEnabled _ => ?_
  refine (resolveFloat_returns db options rfl (by decide)).bind fun bias hBias => ?_
  refine (resolveFloat_returns db options rfl (by decide)).bind fun target hTarget => ?_
  refine (resolveFloat_returns db options rfl (by decide)).bind fun floor hFloor => ?_
  refine Returns.any.bind fun econGovernorFeesEnabled _ => ?_
  refine Returns.any.bind fun authorityLevel _ => ?_
  apply Returns.pure
  intro e he
  simp only [ResolvedFeeCfg.numbers, List.mem_cons, List.not_mem_nil, or_false] at he
  rcases he with rfl | rfl | rfl | rfl | rfl | rfl | rfl | rfl | rfl | rfl | rfl | rfl | rfl |
    rfl | rfl | rfl
  · exact hMin
  · exact hMax
  · exact hStd
  · exact hSaturated
  · exact hFee
  · exact hFlow
  · exact hCongestion
  · exact hDiscount
  · exact hLiquidity
  · exact hBase
  · exact hSource
  · exact hSink
  · exact hBalanced
  · exact hBias
  · exact hTarget
  · exact hFloor

end Resolved

section Repaired

variable {cfg : ResolvedFeeCfg} {field : String} {x lo hi : Float}

theorem ResolvedFeeCfg.InRange.mem (h : cfg.InRange) (hmem : (field, x) ∈ cfg.numbers)
    (hrange : fieldRange field = some (lo, hi)) : lo ≤ x ∧ x ≤ hi :=
  (inRange_iff hrange).mp (h _ hmem)

theorem repairCrossedFeeBounds_eq (minFeePpm maxFeePpm : ℤ) :
    repairCrossedFeeBounds minFeePpm maxFeePpm = (minFeePpm, max minFeePpm maxFeePpm) := by
  rw [repairCrossedFeeBounds]
  split
  · rw [max_eq_left (by omega)]
  · rw [max_eq_right (by omega)]

theorem repairCrossed_eq (cfg : ResolvedFeeCfg) :
    repairCrossed cfg =
      { cfg with
        maxFeePpm := max cfg.minFeePpm cfg.maxFeePpm
        receivableRatioFloor :=
          if cfg.receivableRatioTarget < cfg.receivableRatioFloor then cfg.receivableRatioTarget
          else cfg.receivableRatioFloor } := by
  rw [repairCrossed, repairCrossedFeeBounds_eq]

theorem repairCrossed_receivableRatioTarget :
    (repairCrossed cfg).receivableRatioTarget = cfg.receivableRatioTarget := by
  rw [repairCrossed_eq]

theorem repairCrossed_receivableRatioFloor : (repairCrossed cfg).receivableRatioFloor =
    if cfg.receivableRatioTarget < cfg.receivableRatioFloor then cfg.receivableRatioTarget
    else cfg.receivableRatioFloor := by
  rw [repairCrossed_eq]

theorem repairCrossed_numbers {e : String × Float} (he : e ∈ (repairCrossed cfg).numbers) :
    e ∈ cfg.numbers ∨ e = ("max_fee_ppm", asF64 (max cfg.minFeePpm cfg.maxFeePpm)) ∨
      e = ("receivable_ratio_floor", if cfg.receivableRatioTarget < cfg.receivableRatioFloor then
        cfg.receivableRatioTarget else cfg.receivableRatioFloor) := by
  rw [repairCrossed_eq] at he
  simp only [ResolvedFeeCfg.numbers, List.mem_cons, List.not_mem_nil, or_false] at he ⊢
  tauto

theorem mem_minFeePpm : ("min_fee_ppm", asF64 cfg.minFeePpm) ∈ cfg.numbers := by
  simp [ResolvedFeeCfg.numbers]

theorem mem_maxFeePpm : ("max_fee_ppm", asF64 cfg.maxFeePpm) ∈ cfg.numbers := by
  simp [ResolvedFeeCfg.numbers]

theorem mem_receivableRatioTarget :
    ("receivable_ratio_target", cfg.receivableRatioTarget) ∈ cfg.numbers := by
  simp [ResolvedFeeCfg.numbers]

theorem mem_receivableRatioFloor :
    ("receivable_ratio_floor", cfg.receivableRatioFloor) ∈ cfg.numbers := by
  simp [ResolvedFeeCfg.numbers]

/-- The raised ceiling is in the range of the ceiling, the lowered floor in that of the floor. -/
theorem ResolvedFeeCfg.InRange.repaired (h : cfg.InRange) : (repairCrossed cfg).InRange := by
  intro e he
  rcases repairCrossed_numbers he with hkept | rfl | rfl
  · exact h e hkept
  · rcases max_choice cfg.minFeePpm cfg.maxFeePpm with hmax | hmax
    · rw [hmax]
      have hmin : 5.0 ≤ asF64 cfg.minFeePpm ∧ asF64 cfg.minFeePpm ≤ 100000.0 :=
        h.mem mem_minFeePpm rfl
      have hlow : 1.0 ≤ asF64 cfg.minFeePpm := le_trans_of_isNaN (by decide) (by decide) hmin.1
      have hrange : fieldRange "max_fee_ppm" = some (1.0, 100000.0) := rfl
      exact (inRange_iff hrange).mpr ⟨hlow, hmin.2⟩
    · rw [hmax]
      exact h _ mem_maxFeePpm
  · split
    · have htarget : 0.0 ≤ cfg.receivableRatioTarget ∧ cfg.receivableRatioTarget ≤ 1.0 :=
        h.mem mem_receivableRatioTarget rfl
      have hrange : fieldRange "receivable_ratio_floor" = some (0.0, 1.0) := rfl
      exact (inRange_iff hrange).mpr htarget
    · exact h _ mem_receivableRatioFloor

structure ResolvedFeeCfg.Sound (cfg : ResolvedFeeCfg) : Prop where
  inRange : ∀ e ∈ cfg.numbers, ∃ lo hi, fieldRange e.1 = some (lo, hi) ∧ lo ≤ e.2 ∧ e.2 ≤ hi
  fees : cfg.minFeePpm ≤ cfg.maxFeePpm
  ratios : cfg.receivableRatioFloor ≤ cfg.receivableRatioTarget

theorem ResolvedFeeCfg.exists_range {e : String × Float} (he : e ∈ cfg.numbers) :
    ∃ lo hi, fieldRange e.1 = some (lo, hi) := by
  have hnamed : e.1 ∈ cfg.numbers.map Prod.fst := List.mem_map_of_mem he
  have hall : ∀ name ∈ cfg.numbers.map Prod.fst, (fieldRange name).isSome = true := by
    simp only [numbers, List.map_cons, List.map_nil]
    decide
  obtain ⟨⟨lo, hi⟩, hrange⟩ := Option.isSome_iff_exists.mp (hall _ hnamed)
  exact ⟨lo, hi, hrange⟩

theorem ResolvedFeeCfg.InRange.ratios (h : cfg.InRange) :
    (repairCrossed cfg).receivableRatioFloor ≤ (repairCrossed cfg).receivableRatioTarget := by
  have htarget : 0.0 ≤ cfg.receivableRatioTarget ∧ cfg.receivableRatioTarget ≤ 1.0 :=
    h.mem mem_receivableRatioTarget rfl
  have hfloor : 0.0 ≤ cfg.receivableRatioFloor ∧ cfg.receivableRatioFloor ≤ 1.0 :=
    h.mem mem_receivableRatioFloor rfl
  rw [repairCrossed_receivableRatioFloor, repairCrossed_receivableRatioTarget]
  split
  · exact le_self_of_isNaN (isNaN_of_le htarget.1)
  · rename_i hordered
    exact le_of_not_lt_of_isNaN (isNaN_of_le htarget.1) (isNaN_of_le hfloor.1) hordered

theorem ResolvedFeeCfg.InRange.sound (h : cfg.InRange) : (repairCrossed cfg).Sound where
  inRange := by
    intro e he
    obtain ⟨lo, hi, hrange⟩ := exists_range he
    exact ⟨lo, hi, hrange, (inRange_iff hrange).mp (h.repaired e he)⟩
  fees := by
    rw [repairCrossed_eq]
    exact le_max_left _ _
  ratios := h.ratios

end Repaired

section Reread

/-- Whatever the overrides, their failures and their commits between two reads, and whatever the
options: the configuration is in its ranges and not crossed. The second clamp of an option is the
identity exactly where every option is one that the first clamp leaves as the second wants it. -/
theorem resolveFeeCfg_sound_and_reread_iff [UnicodeCase] (options : Dict String OptValue) :
    (∀ db, (resolveFeeCfg db (clampStartupOptionMap options)).Sound) ∧
      ((∀ suffix value,
        Dict.get? (clampStartupOptionMap options) ("revenue-ops-" ++ suffix) = some value →
          (clampStartupNumeric (dbOverrideKey suffix) value).1 = value) ↔
        ∀ suffix value, Dict.get? options ("revenue-ops-" ++ suffix) = some value →
          RereadStable (dbOverrideKey suffix) value) := by
  constructor
  · intro db
    exact (resolveFields_returns db options ⟨0, 0⟩).sound
  · constructor
    · intro h suffix value hget
      apply (reread_iff _ _).mp
      apply h
      rw [get_clampStartupOptionMap, hget]
      rfl
    · intro h suffix value hget
      rw [get_clampStartupOptionMap] at hget
      obtain ⟨raw, hraw, rfl⟩ := Option.map_eq_some_iff.mp hget
      exact (reread_iff _ _).mpr (h suffix raw hraw)

/-- No integer, so the first clamp passes it; the second reads a billion and writes the ceiling. -/
def scientificOptions : Dict String OptValue where
  rows := [("revenue-ops-min-fee-ppm", .string "1e9")]
  nodup := by decide

theorem reread_scientific : ¬ ∀ (options : Dict String OptValue) (suffix : String) value,
    Dict.get? (clampStartupOptionMap options) ("revenue-ops-" ++ suffix) = some value →
      (clampStartupNumeric (dbOverrideKey suffix) value).1 = value := by
  intro h
  have hpassed : Dict.get? (clampStartupOptionMap scientificOptions)
      ("revenue-ops-" ++ "min-fee-ppm") = some (.string "1e9") := by decide +kernel
  have hchanged : (clampStartupNumeric (dbOverrideKey "min-fee-ppm") (.string "1e9")).1 =
      .string "100000" := by decide +kernel
  have hsame := h scientificOptions "min-fee-ppm" _ hpassed
  rw [hchanged] at hsame
  exact absurd hsame (by decide)

end Reread

end FeeConfig
