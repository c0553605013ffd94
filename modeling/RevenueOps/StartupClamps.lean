import RevenueOps.ConfigResolve

/-! The two clamps of a startup option: what each leaves in range, and where the second one still
changes what the first one passed. -/
namespace ConfigResolve

open Binary64 ConfigTypes FloatText KeyedTable RustFloat RustNumber

section Bounds

structure WholeAt (x : Float) (a : ℤ) : Prop where
  denotes : Denotes x (a : ℝ)
  cast : asI64 x = a
  ceil : asI64 (ceilF64 x) = a
  floor : asI64 (floorF64 x) = a
  small : -4503599627370496 ≤ a ∧ a ≤ 4503599627370496
  text : RustText.parseI64 (displayF64 x) = some a

structure RealAt (x : Float) : Prop where
  finite : x.isFinite = true
  small : asF64 (-4503599627370496) ≤ x ∧ x ≤ asF64 4503599627370496
  text : parseF64 (displayF64 x) = some x
  whole : (fractF64 x == 0.0) = true → parseF64 (toString (asI64 x)) = some x

structure WholeRange (lo hi : Float) (a b : ℤ) : Prop where
  low : WholeAt lo a
  high : WholeAt hi b
  ordered : a ≤ b

structure RealRange (lo hi : Float) : Prop where
  low : RealAt lo
  high : RealAt hi
  ordered : lo < hi

def wholeBounds : List Float :=
  [0.0, 1.0, 2.0, 5.0, 10.0, 20.0, 24.0, 50.0, 60.0, 90.0, 100.0, 168.0, 300.0, 365.0, 500.0,
    1000.0, 3600.0, 5000.0, 10000.0, 86400.0, 100000.0, 1000000.0, 10000000.0, 70000000.0,
    100000000.0]

def realBounds : List Float := [-1.0, 0.0, 0.01, 0.05, 0.5, 1.0, 10.0, 20.0, 168.0, 1000.0]

def isOneOf (bounds : List Float) (x : Float) : Bool := bounds.any fun y => decide (y = x)

theorem mem_of_isOneOf {bounds : List Float} {x : Float} (h : isOneOf bounds x = true) :
    x ∈ bounds := by
  obtain ⟨y, hy, heq⟩ := List.any_eq_true.mp h
  exact of_decide_eq_true heq ▸ hy

/-- The bounds are written and read back as they are, and every range of the table is of the kind
of its field. -/
theorem bounds_checked :
    (∀ x ∈ wholeBounds, x = asF64 (asI64 x) ∧
      (asI64 (ceilF64 x) = asI64 x ∧ asI64 (floorF64 x) = asI64 x) ∧
      (-4503599627370496 ≤ asI64 x ∧ asI64 x ≤ 4503599627370496) ∧
      RustText.parseI64 (displayF64 x) = some (asI64 x)) ∧
    (∀ x ∈ realBounds, x.isFinite = true ∧
      (asF64 (-4503599627370496) ≤ x ∧ x ≤ asF64 4503599627370496) ∧
      parseF64 (displayF64 x) = some x ∧
      ((fractF64 x == 0.0) = true → parseF64 (toString (asI64 x)) = some x)) ∧
    ∀ e ∈ ranges,
      (fieldTypeFor e.1 = some .int ∧ isOneOf wholeBounds e.2.1 = true ∧
          isOneOf wholeBounds e.2.2 = true ∧ e.2.1 < e.2.2) ∨
        (fieldTypeFor e.1 = some .float ∧ isOneOf realBounds e.2.1 = true ∧
          isOneOf realBounds e.2.2 = true ∧ e.2.1 < e.2.2) := by decide +kernel

theorem wholeAt_of_mem {x : Float} (h : x ∈ wholeBounds) : WholeAt x (asI64 x) := by
  obtain ⟨heq, ⟨hceil, hfloor⟩, hsmall, htext⟩ := bounds_checked.1 x h
  have hden : Denotes (asF64 (asI64 x)) (asI64 x : ℝ) := asF64_exact (abs_le.mpr (by omega))
  rw [← heq] at hden
  exact ⟨hden, rfl, hceil, hfloor, hsmall, htext⟩

theorem realAt_of_mem {x : Float} (h : x ∈ realBounds) : RealAt x := by
  obtain ⟨hfinite, hsmall, htext, hwhole⟩ := bounds_checked.2.1 x h
  exact ⟨hfinite, hsmall, htext, hwhole⟩

theorem range_cases {field : String} {lo hi : Float} (h : fieldRange field = some (lo, hi)) :
    (fieldTypeFor field = some .int ∧ ∃ a b, WholeRange lo hi a b) ∨
      (fieldTypeFor field = some .float ∧ RealRange lo hi) := by
  obtain ⟨before, after, hranges, -⟩ := List.lookup_eq_some_iff.mp h
  have hmem : (field, lo, hi) ∈ ranges := by
    rw [hranges]
    simp
  rcases bounds_checked.2.2 _ hmem with ⟨htype, hlo, hhi, hlt⟩ | ⟨htype, hlo, hhi, hlt⟩
  · have hlow := wholeAt_of_mem (mem_of_isOneOf hlo)
    have hhigh := wholeAt_of_mem (mem_of_isOneOf hhi)
    refine .inl ⟨htype, _, _, hlow, hhigh, ?_⟩
    have hlt' := (lt_iff hlow.denotes hhigh.denotes).mp hlt
    exact_mod_cast hlt'.le
  · exact .inr ⟨htype, realAt_of_mem (mem_of_isOneOf hlo), realAt_of_mem (mem_of_isOneOf hhi), hlt⟩

end Bounds

section Ranges

variable {x lo hi : Float} {v : EReal} {n a b : ℤ}

theorem le_of_roundsTo {c : ℤ} (h : RoundsTo n v)
    (hc : c < 4503599627370497 ∧ -4503599627370497 ≤ c)
    (hv : v ≤ ((c : ℝ) : EReal)) : n ≤ c := by
  by_contra hgt
  have hstep : ((c + 1 : ℤ) : ℝ) ≤ n := by exact_mod_cast (by omega : c + 1 ≤ n)
  have hle := (h.lower (grid_int (abs_le.mpr (by omega))) hstep).trans hv
  have hcast : ((c + 1 : ℤ) : ℝ) ≤ c := EReal.coe_le_coe_iff.mp hle
  have : c + 1 ≤ c := by exact_mod_cast hcast
  omega

theorem ge_of_roundsTo {c : ℤ} (h : RoundsTo n v)
    (hc : c < 4503599627370497 ∧ -4503599627370497 ≤ c)
    (hv : ((c : ℝ) : EReal) ≤ v) : c ≤ n := by
  by_contra hgt
  have hstep : (n : ℝ) ≤ ((c - 1 : ℤ) : ℝ) := by exact_mod_cast (by omega : n ≤ c - 1)
  have hle := hv.trans (h.upper (grid_int (abs_le.mpr (by omega))) hstep)
  have hcast : (c : ℝ) ≤ ((c - 1 : ℤ) : ℝ) := EReal.coe_le_coe_iff.mp hle
  have : c ≤ c - 1 := by exact_mod_cast hcast
  omega

/-- An integer is in a whole range exactly when the double it is rounded to is. -/
theorem WholeRange.mem_iff (hr : WholeRange lo hi a b) (hx : Denotes x v) (h : RoundsTo n v) :
    lo ≤ x ∧ x ≤ hi ↔ a ≤ n ∧ n ≤ b := by
  obtain ⟨halow, hahigh⟩ := hr.low.small
  obtain ⟨hblow, hbhigh⟩ := hr.high.small
  rw [le_iff hr.low.denotes hx, le_iff hx hr.high.denotes]
  constructor
  · rintro ⟨hlow, hhigh⟩
    exact ⟨ge_of_roundsTo h (by omega) hlow, le_of_roundsTo h (by omega) hhigh⟩
  · rintro ⟨hlow, hhigh⟩
    exact ⟨h.lower (grid_int (abs_le.mpr (by omega))) (by exact_mod_cast hlow),
      h.upper (grid_int (abs_le.mpr (by omega))) (by exact_mod_cast hhigh)⟩

end Ranges

section Rendered

variable {x lo hi : Float} {v : EReal} {a b : ℤ}

def rendered (lo hi x : Float) : String :=
  if fractF64 lo == 0.0 && fractF64 hi == 0.0 && fractF64 x == 0.0 then
    toString (asI64 (clampF64 x lo hi))
  else displayF64 (clampF64 x lo hi)

theorem sub_notANumber (u : Float.Model.UnpackedFloat) :
    Float.Model.UnpackedFloat.sub .binary64 .notANumber u = .notANumber := by
  cases u <;> rfl

theorem isNaN_fractF64 (h : x.isNaN = true) : (fractF64 x).isNaN = true := by
  change x.toModel.unpack.isNaN = true at h
  have hunpack : ∀ y : Float, (x - y).toModel.unpack = (Float.Model.pack
      (Float.Model.UnpackedFloat.sub .binary64 x.toModel.unpack y.toModel.unpack)).unpack :=
    fun _ => rfl
  cases hx : x.toModel.unpack with
  | notANumber =>
    change (x - _).toModel.unpack.isNaN = true
    rw [hunpack, hx, sub_notANumber]
    decide
  | _ =>
    rw [hx] at h
    cases h

theorem displayF64_of_isNaN (h : x.isNaN = true) : displayF64 x = "NaN" := by
  change x.toModel.unpack.isNaN = true at h
  cases hx : x.toModel.unpack with
  | notANumber => rw [displayF64, hx]
  | _ =>
    rw [hx] at h
    cases h

theorem rendered_of_isNaN (h : x.isNaN = true) : rendered lo hi x = "NaN" := by
  have hfract : (fractF64 x == 0.0) = false := beq_of_isNaN (isNaN_fractF64 h)
  rw [rendered, hfract, Bool.and_false, if_neg (by decide), clampF64_of_isNaN h,
    displayF64_of_isNaN h]

theorem parseF64_NaN : parseF64 (RustText.trim "NaN") = some nan := by
  decide +kernel

theorem clampF64_bound (hx : x.isNaN = false) (h : ¬ (clampF64 x lo hi == x) = true) :
    clampF64 x lo hi = lo ∨ clampF64 x lo hi = hi := by
  obtain ⟨v, hv⟩ := denotes_of_not_isNaN hx
  rcases clampF64_cases x lo hi with hc | hc | hc
  · exact .inl hc
  · exact .inr hc
  · rw [hc] at h
    exact absurd ((beq_iff hv hv).mpr rfl) h

theorem WholeAt.rendered_text (h : WholeAt x a) :
    RustText.parseI64 (toString (asI64 x)) = some a ∧
    RustText.parseI64 (displayF64 x) = some a := by
  have hsmall := h.small
  rw [h.cast]
  exact ⟨(signedDigits_toString a).parseI64 (by constructor <;> omega), h.text⟩

theorem WholeRange.rendered_text (hr : WholeRange lo hi a b) (hx : x.isNaN = false)
    (h : ¬ (clampF64 x lo hi == x) = true) :
    RustText.parseI64 (rendered lo hi x) = some a ∨
      RustText.parseI64 (rendered lo hi x) = some b := by
  obtain ⟨hloText, hloDisplay⟩ := hr.low.rendered_text
  obtain ⟨hhiText, hhiDisplay⟩ := hr.high.rendered_text
  unfold rendered
  rcases clampF64_bound hx h with hc | hc
  · left
    rw [hc]
    split
    · exact hloText
    · exact hloDisplay
  · right
    rw [hc]
    split
    · exact hhiText
    · exact hhiDisplay

theorem RealRange.rendered_text (hr : RealRange lo hi) (hx : x.isNaN = false)
    (h : ¬ (clampF64 x lo hi == x) = true) :
    parseF64 (rendered lo hi x) = some lo ∨ parseF64 (rendered lo hi x) = some hi := by
  unfold rendered
  rcases clampF64_bound hx h with hc | hc
  · left
    rw [hc]
    split
    · rename_i hwhole
      simp only [Bool.and_eq_true] at hwhole
      exact hr.low.whole hwhole.1.1
    · exact hr.low.text
  · right
    rw [hc]
    split
    · rename_i hwhole
      simp only [Bool.and_eq_true] at hwhole
      exact hr.high.whole hwhole.1.2
    · exact hr.high.text

end Rendered

section Reread

variable {field s : String} {value : OptValue} {x lo hi : Float} {k : Int64} {a b n : ℤ}

def reread (field : String) (value : OptValue) : OptValue := (clampStartupNumeric field value).1

theorem reread_of_no_range (h : fieldRange field = none) : reread field value = value := by
  rw [reread, clampStartupNumeric, h]

theorem reread_string_none (h : fieldRange field = some (lo, hi))
    (hs : parseF64 (RustText.trim s) = none) : reread field (.string s) = .string s := by
  simp only [reread, clampStartupNumeric, h, hs]

theorem reread_string (h : fieldRange field = some (lo, hi))
    (hs : parseF64 (RustText.trim s) = some x) :
    reread field (.string s) =
      if clampF64 x lo hi == x then .string s else .string (rendered lo hi x) := by
  simp only [reread, clampStartupNumeric, h, hs]
  split
  · rfl
  · rfl

theorem reread_integer (h : fieldRange field = some (lo, hi)) :
    reread field (.integer k) =
      if clampF64 (asF64 k.toInt) lo hi == asF64 k.toInt then .integer k
      else .integer (Int64.ofInt (asI64 (clampF64 (asF64 k.toInt) lo hi))) := by
  simp only [reread, clampStartupNumeric, h]
  split
  · rfl
  · rfl

theorem reread_integer_whole (h : fieldRange field = some (lo, hi)) (hr : WholeRange lo hi a b)
    (hk : a ≤ k.toInt ∧ k.toInt ≤ b) : reread field (.integer k) = .integer k := by
  obtain ⟨v, hv, hround⟩ := denotes_asF64 k.toInt
  rw [reread_integer h, if_pos]
  exact (clampF64_beq_iff hv hr.low.denotes hr.high.denotes).mpr ((hr.mem_iff hv hround).mpr hk)

/-- The text of an integer passes the second clamp exactly where the integer is in range. -/
theorem clampF64_parsed_iff (hr : WholeRange lo hi a b)
    (hn : RustText.parseI64 s = some n) (hx : parseF64 s = some x) :
    (clampF64 x lo hi == x) = true ↔ a ≤ n ∧ n ≤ b := by
  obtain ⟨y, v, hy, hv, hround⟩ := (signedDigits_of_parseI64 hn).parseF64
  obtain rfl : y = x := Option.some.inj (hy.symm.trans hx)
  rw [clampF64_beq_iff hv hr.low.denotes hr.high.denotes, hr.mem_iff hv hround]

theorem parseI64_integer (k : Int64) :
    RustText.parseI64 (RustText.trim (toString k.toInt)) = some k.toInt := by
  have hparse : RustText.parseI64 (toString k.toInt) = some k.toInt :=
    (signedDigits_toString k.toInt).parseI64 ⟨k.le_toInt, by have := k.toInt_lt; omega⟩
  rw [trim_of_parseI64 hparse]
  exact hparse

theorem toInt_ofInt_small {c : ℤ} (h : -4503599627370496 ≤ c ∧ c ≤ 4503599627370496) :
    (Int64.ofInt c).toInt = c := Int64.toInt_ofInt_of_le (by omega) (by omega)

end Reread

section Whole

variable {field s : String} {value : OptValue} {lo hi : Float} {k : Int64} {a b n : ℤ}
  (htype : fieldTypeFor field = some .int) (hrange : fieldRange field = some (lo, hi))
  (hr : WholeRange lo hi a b)

include htype hrange hr

theorem clampInPlace_whole
    (hn : (optionValueToString value).bind (fun raw => RustText.parseI64 (RustText.trim raw)) =
      some n) :
    clampInPlace field value =
      if max a (min b n) ≠ n then .integer (Int64.ofInt (max a (min b n))) else value := by
  simp only [clampInPlace, htype, hn, clampStartupInt, hrange, hr.low.ceil, hr.high.floor]

/-- An integer that the first clamp pulled into range, or left there, passes the second one. -/
theorem reread_whole
    (hn : (optionValueToString value).bind (fun raw => RustText.parseI64 (RustText.trim raw)) =
      some n)
    (hin : a ≤ n ∧ n ≤ b → reread field value = value) :
    reread field (clampInPlace field value) = clampInPlace field value := by
  have hordered := hr.ordered
  have hlow := hr.low.small
  have hhigh := hr.high.small
  rw [clampInPlace_whole htype hrange hr hn]
  by_cases hc : max a (min b n) ≠ n
  · rw [if_pos hc]
    apply reread_integer_whole hrange hr
    rw [toInt_ofInt_small (by omega)]
    omega
  · rw [if_neg hc]
    exact hin (by omega)

theorem reread_whole_string (hn : RustText.parseI64 (RustText.trim s) = some n) :
    reread field (clampInPlace field (.string s)) = clampInPlace field (.string s) := by
  have htext : (optionValueToString (.string s)).bind
      (fun raw => RustText.parseI64 (RustText.trim raw)) = some n := hn
  apply reread_whole htype hrange hr htext
  intro hin
  obtain ⟨x, v, hx, -, -⟩ := (signedDigits_of_parseI64 hn).parseF64
  rw [reread_string hrange hx, if_pos ((clampF64_parsed_iff hr hn hx).mpr hin)]

theorem reread_whole_integer :
    reread field (clampInPlace field (.integer k)) = clampInPlace field (.integer k) :=
  have htext : (optionValueToString (.integer k)).bind
      (fun raw => RustText.parseI64 (RustText.trim raw)) = some k.toInt := parseI64_integer k
  reread_whole htype hrange hr htext (reread_integer_whole hrange hr)

/-- Text that is no integer: the first clamp leaves it alone, the second one reads it as a float. -/
theorem reread_whole_text_iff (hn : RustText.parseI64 (RustText.trim s) = none) :
    reread field (clampInPlace field (.string s)) = clampInPlace field (.string s) ↔
      (∀ x, parseF64 (RustText.trim s) = some x → lo ≤ x ∧ x ≤ hi) ∨ s = "NaN" := by
  have hfirst : clampInPlace field (.string s) = .string s := by
    simp only [clampInPlace, htype, optionValueToString, Option.bind_some, hn]
  rw [hfirst]
  cases hx : parseF64 (RustText.trim s) with
  | none => simp [reread_string_none hrange hx]
  | some x =>
    rw [reread_string hrange hx]
    cases hnan : x.isNaN with
    | true =>
      rw [beq_of_isNaN (by rw [clampF64_of_isNaN hnan]; exact hnan), if_neg (by decide),
        rendered_of_isNaN hnan]
      have hout : ¬ ∀ y, some x = some y → lo ≤ y ∧ y ≤ hi := fun h =>
        not_le_of_isNaN hnan (h x rfl).1
      constructor
      · intro h
        exact .inr (OptValue.string.inj h).symm
      · intro h
        rw [h.resolve_left hout]
    | false =>
      obtain ⟨v, hv⟩ := denotes_of_not_isNaN hnan
      have hiff := clampF64_beq_iff hv hr.low.denotes hr.high.denotes
      by_cases hin : (clampF64 x lo hi == x) = true
      · rw [if_pos hin]
        simp only [true_iff]
        left
        rintro y ⟨rfl⟩
        exact hiff.mp hin
      · rw [if_neg hin]
        constructor
        · intro h
          have htext := OptValue.string.inj h
          have hparse := hr.rendered_text hnan hin
          rw [htext] at hparse
          rcases hparse with hparse | hparse
          · rw [trim_of_parseI64 hparse, hparse] at hn
            cases hn
          · rw [trim_of_parseI64 hparse, hparse] at hn
            cases hn
        · rintro (h | rfl)
          · exact absurd (hiff.mpr (h x rfl)) hin
          · rw [parseF64_NaN] at hx
            cases hx
            exact absurd hnan (by decide)

end Whole

section Real

variable {field s : String} {value : OptValue} {x lo hi : Float} {v : EReal} {k : Int64}

theorem RealAt.exists_denotes (h : RealAt x) : ∃ r : ℝ, Denotes x r ∧ |r| ≤ 4503599627370496 := by
  obtain ⟨r, hr⟩ := isFinite_iff.mp h.finite
  have hbig : Denotes (asF64 4503599627370496) ((4503599627370496 : ℤ) : ℝ) :=
    asF64_exact (abs_le.mpr (by omega))
  have hsmall : Denotes (asF64 (-4503599627370496)) ((-4503599627370496 : ℤ) : ℝ) :=
    asF64_exact (abs_le.mpr (by omega))
  have hlow := EReal.coe_le_coe_iff.mp ((le_iff hsmall hr).mp h.small.1)
  have hhigh := EReal.coe_le_coe_iff.mp ((le_iff hr hbig).mp h.small.2)
  push_cast at hlow hhigh
  exact ⟨r, hr, abs_le.mpr ⟨hlow, hhigh⟩⟩

theorem RealRange.isFinite (hr : RealRange lo hi) (h : lo ≤ x ∧ x ≤ hi) : x.isFinite = true := by
  obtain ⟨l, hl, -⟩ := hr.low.exists_denotes
  obtain ⟨u, hu, -⟩ := hr.high.exists_denotes
  cases hnan : x.isNaN with
  | true => exact absurd h.1 (not_le_of_isNaN hnan)
  | false =>
    obtain ⟨v, hv⟩ := denotes_of_not_isNaN hnan
    have hlow := (le_iff hl hv).mp h.1
    have hhigh := (le_iff hv hu).mp h.2
    induction v with
    | coe r => exact isFinite_iff.mpr ⟨r, hv⟩
    | bot => exact absurd hlow (not_le.mpr (EReal.bot_lt_coe l))
    | top => exact absurd hhigh (not_le.mpr (EReal.coe_lt_top u))

theorem RealRange.beq_iff (hr : RealRange lo hi) (hx : Denotes x v) :
    (clampF64 x lo hi == x) = true ↔ lo ≤ x ∧ x ≤ hi := by
  obtain ⟨l, hl, -⟩ := hr.low.exists_denotes
  obtain ⟨u, hu, -⟩ := hr.high.exists_denotes
  exact clampF64_beq_iff hx hl hu

theorem RealRange.first_iff (hr : RealRange lo hi) (hx : Denotes x v) :
    (maxF64 lo (minF64 hi x) == x) = true ↔ lo ≤ x ∧ x ≤ hi := by
  obtain ⟨l, hl, -⟩ := hr.low.exists_denotes
  obtain ⟨u, hu, -⟩ := hr.high.exists_denotes
  exact maxMin_beq_iff hx hl hu ((lt_iff hl hu).mp hr.ordered).le

theorem RealRange.bounds_in (hr : RealRange lo hi) : (lo ≤ lo ∧ lo ≤ hi) ∧ lo ≤ hi ∧ hi ≤ hi := by
  obtain ⟨l, hl, -⟩ := hr.low.exists_denotes
  obtain ⟨u, hu, -⟩ := hr.high.exists_denotes
  have hle := ((lt_iff hl hu).mp hr.ordered).le
  simp [le_iff hl hl, le_iff hl hu, le_iff hu hu, hle]

theorem RealRange.integer_iff (hr : RealRange lo hi) {n : ℤ} {y : Float} {w : EReal}
    (hx : Denotes x v) (hround : RoundsTo n v) (hy : Denotes y w) (hround' : RoundsTo n w)
    (h : lo ≤ x ∧ x ≤ hi) : lo ≤ y ∧ y ≤ hi := by
  obtain ⟨l, hl, hlsmall⟩ := hr.low.exists_denotes
  obtain ⟨u, hu, husmall⟩ := hr.high.exists_denotes
  have hlow := (le_iff hl hx).mp h.1
  have hhigh := (le_iff hx hu).mp h.2
  have hmin : -4503599627370496 ≤ n := by
    apply ge_of_roundsTo hround (by decide)
    refine le_trans (EReal.coe_le_coe_iff.mpr ?_) hlow
    push_cast
    exact (abs_le.mp hlsmall).1
  have hmax : n ≤ 4503599627370496 := by
    apply le_of_roundsTo hround (by decide)
    refine le_trans hhigh (EReal.coe_le_coe_iff.mpr ?_)
    push_cast
    exact (abs_le.mp husmall).2
  have hgrid : Grid (n : ℝ) := grid_int (abs_le.mpr (by omega))
  have hv := hround.eq_of_grid hgrid
  have hw := hround'.eq_of_grid hgrid
  rw [le_iff hl hy, le_iff hy hu, hw, ← hv]
  exact ⟨hlow, hhigh⟩

theorem maxMin_bound (hx : Denotes x v) (h : ¬ (maxF64 lo (minF64 hi x) == x) = true) :
    maxF64 lo (minF64 hi x) = lo ∨ maxF64 lo (minF64 hi x) = hi := by
  rcases maxF64_cases lo (minF64 hi x) with hc | hc
  · exact .inl hc
  · rcases minF64_cases hi x with hm | hm
    · exact .inr (hc.trans hm)
    · rw [hc, hm] at h
      exact absurd ((Binary64.beq_iff hx hx).mpr rfl) h

end Real

section RealFields

variable {field s : String} {value : OptValue} {x lo hi : Float} {k : Int64}
  (htype : fieldTypeFor field = some .float) (hrange : fieldRange field = some (lo, hi))
  (hr : RealRange lo hi)

include htype hrange hr

omit htype in
theorem reread_bound {c : Float} (hc : c = lo ∨ c = hi) :
    reread field (.string (displayF64 c)) = .string (displayF64 c) := by
  have htext : parseF64 (displayF64 c) = some c := by
    rcases hc with rfl | rfl
    · exact hr.low.text
    · exact hr.high.text
  have hin : lo ≤ c ∧ c ≤ hi := by
    rcases hc with rfl | rfl
    · exact hr.bounds_in.1
    · exact hr.bounds_in.2
  obtain ⟨v, hv⟩ := isFinite_iff.mp (hr.isFinite hin)
  have hparse : parseF64 (RustText.trim (displayF64 c)) = some c := by
    rw [trim_of_parseF64 htext, htext]
  rw [reread_string hrange hparse, if_pos ((hr.beq_iff hv).mpr hin)]

omit hr in
theorem clampInPlace_real
    (hx : (optionValueToString value).bind (fun raw => parseF64 (RustText.trim raw)) = some x)
    (hfinite : x.isFinite = true) :
    clampInPlace field value =
      if maxF64 lo (minF64 hi x) == x then value
      else .string (displayF64 (maxF64 lo (minF64 hi x))) := by
  simp only [clampInPlace, htype, hx, hfinite, clampStartupFloat, hrange, bne]
  by_cases hc : (maxF64 lo (minF64 hi x) == x) = true
  · simp [hc]
  · simp [hc]

/-- A finite number that the first clamp pulled into range, or left there, passes the second. -/
theorem reread_real
    (hx : (optionValueToString value).bind (fun raw => parseF64 (RustText.trim raw)) = some x)
    (hfinite : x.isFinite = true) (hin : lo ≤ x ∧ x ≤ hi → reread field value = value) :
    reread field (clampInPlace field value) = clampInPlace field value := by
  obtain ⟨r, hv⟩ := isFinite_iff.mp hfinite
  rw [clampInPlace_real htype hrange hx hfinite]
  by_cases hc : (maxF64 lo (minF64 hi x) == x) = true
  · rw [if_pos hc]
    exact hin ((hr.first_iff hv).mp hc)
  · rw [if_neg hc]
    exact reread_bound hrange hr (maxMin_bound hv hc)

omit htype hrange hr in
theorem parseF64_integer (k : Int64) : ∃ (x : Float) (r : ℝ),
    (optionValueToString (.integer k)).bind (fun raw => parseF64 (RustText.trim raw)) = some x ∧
      Denotes x r ∧ RoundsTo k.toInt r := by
  obtain ⟨x, v, hparse, hv, hround⟩ := (signedDigits_toString k.toInt).parseF64
  have hlow := k.le_toInt
  have hhigh := k.toInt_lt
  have hgrid : Grid (9223372036854775808 : ℝ) :=
    ⟨1, 63, by decide, by decide, by decide, by norm_num⟩
  obtain ⟨r, rfl, -, -⟩ := hround.between hgrid.neg hgrid
    (by exact_mod_cast hlow) (by exact_mod_cast hhigh.le)
  refine ⟨x, r, ?_, hv, hround⟩
  change parseF64 (RustText.trim (toString k.toInt)) = some x
  rw [trim_of_parseF64 hparse, hparse]

theorem clampInPlace_integer (h : clampInPlace field (.integer k) = .integer k) :
    lo ≤ asF64 k.toInt ∧ asF64 k.toInt ≤ hi := by
  obtain ⟨x, r, htext, hv, hround⟩ := parseF64_integer k
  rw [clampInPlace_real htype hrange htext (isFinite_iff.mpr ⟨r, hv⟩)] at h
  by_cases hc : (maxF64 lo (minF64 hi x) == x) = true
  · obtain ⟨w, hw, hround'⟩ := denotes_asF64 k.toInt
    exact hr.integer_iff hv hround hw hround' ((hr.first_iff hv).mp hc)
  · rw [if_neg hc] at h
    cases h

theorem reread_real_integer :
    reread field (clampInPlace field (.integer k)) = clampInPlace field (.integer k) := by
  obtain ⟨x, r, htext, hv, hround⟩ := parseF64_integer k
  apply reread_real htype hrange hr htext (isFinite_iff.mpr ⟨r, hv⟩)
  intro hin
  obtain ⟨w, hw, hround'⟩ := denotes_asF64 k.toInt
  rw [reread_integer hrange, if_pos ((hr.beq_iff hw).mpr (hr.integer_iff hv hround hw hround' hin))]

/-- Text of a float field passes the second clamp unless it spells an infinity or a NaN. -/
theorem reread_real_text_iff :
    reread field (clampInPlace field (.string s)) = clampInPlace field (.string s) ↔
      (∀ x, parseF64 (RustText.trim s) = some x → x.isFinite = true) ∨ s = "NaN" := by
  cases hx : parseF64 (RustText.trim s) with
  | none =>
    have hfirst : clampInPlace field (.string s) = .string s := by
      simp only [clampInPlace, htype, optionValueToString, Option.bind_some, hx]
    simp [hfirst, reread_string_none hrange hx]
  | some x =>
    have htext : (optionValueToString (.string s)).bind
        (fun raw => parseF64 (RustText.trim raw)) = some x := hx
    cases hfinite : x.isFinite with
    | true =>
      have hstable := reread_real htype hrange hr htext hfinite fun hin => by
        obtain ⟨r, hv⟩ := isFinite_iff.mp hfinite
        rw [reread_string hrange hx, if_pos ((hr.beq_iff hv).mpr hin)]
      refine ⟨fun _ => .inl ?_, fun _ => hstable⟩
      rintro y ⟨rfl⟩
      exact hfinite
    | false =>
      have hfirst : clampInPlace field (.string s) = .string s := by
        simp only [clampInPlace, htype, htext, hfinite, Bool.not_false, if_true]
      have hout : ¬ ∀ y, some x = some y → y.isFinite = true := fun h => by
        rw [h x rfl] at hfinite
        cases hfinite
      rw [hfirst, reread_string hrange hx]
      cases hnan : x.isNaN with
      | true =>
        rw [beq_of_isNaN (by rw [clampF64_of_isNaN hnan]; exact hnan), if_neg (by decide),
          rendered_of_isNaN hnan]
        constructor
        · intro h
          exact .inr (OptValue.string.inj h).symm
        · intro h
          rw [h.resolve_left hout]
      | false =>
        obtain ⟨v, hv⟩ := denotes_of_not_isNaN hnan
        have hchanged : ¬ (clampF64 x lo hi == x) = true := fun h => by
          rw [hr.isFinite ((hr.beq_iff hv).mp h)] at hfinite
          cases hfinite
        rw [if_neg hchanged]
        constructor
        · intro h
          have hsame := OptValue.string.inj h
          have hparse := hr.rendered_text hnan hchanged
          rw [hsame] at hparse
          rcases hparse with hparse | hparse
          · rw [trim_of_parseF64 hparse, hparse] at hx
            cases hx
            rw [hr.low.finite] at hfinite
            cases hfinite
          · rw [trim_of_parseF64 hparse, hparse] at hx
            cases hx
            rw [hr.high.finite] at hfinite
            cases hfinite
        · intro h
          obtain rfl := h.resolve_left hout
          rw [parseF64_NaN] at hx
          cases hx
          exact absurd hnan (by decide)

end RealFields

section Options

/-- The options that the first clamp leaves as the second one wants them: the text of an integer
field is an integer, or no number, or a number in range, and the text of a float field is no
infinity and no NaN, other than the one word that the second clamp writes itself. -/
def RereadStable (field : String) : OptValue → Prop
  | .string s =>
    match fieldTypeFor field, fieldRange field with
    | some .int, some (lo, hi) =>
      (RustText.parseI64 (RustText.trim s)).isSome = true ∨
        (∀ x, parseF64 (RustText.trim s) = some x → lo ≤ x ∧ x ≤ hi) ∨ s = "NaN"
    | some .float, some _ =>
      (∀ x, parseF64 (RustText.trim s) = some x → x.isFinite = true) ∨ s = "NaN"
    | _, _ => True
  | _ => True

theorem clampInPlace_other {field : String} {value : OptValue}
    (h : ∀ s, optionValueToString value = some s →
      RustText.parseI64 (RustText.trim s) = none ∧ parseF64 (RustText.trim s) = none) :
    clampInPlace field value = value := by
  have hnone : ((optionValueToString value).bind
      fun raw => RustText.parseI64 (RustText.trim raw)) = none ∧
      ((optionValueToString value).bind fun raw => parseF64 (RustText.trim raw)) = none := by
    cases hs : optionValueToString value with
    | none => exact ⟨rfl, rfl⟩
    | some s => exact h s hs
  rw [clampInPlace, hnone.1, hnone.2]
  split <;> rfl

theorem reread_boolean {field : String} {b : Bool} :
    reread field (clampInPlace field (.boolean b)) = clampInPlace field (.boolean b) := by
  rw [clampInPlace_other]
  · unfold reread clampStartupNumeric
    split <;> rfl
  · intro s hs
    cases b <;> cases hs <;> decide +kernel

/-- The second clamp keeps what the first one passed exactly at the stable options. -/
theorem reread_iff (field : String) (value : OptValue) :
    reread field (clampInPlace field value) = clampInPlace field value ↔
      RereadStable field value := by
  cases hrange : fieldRange field with
  | none =>
    rw [reread_of_no_range hrange]
    cases value with
    | string s =>
      simp only [RereadStable, hrange, true_iff]
      cases fieldTypeFor field with
      | none => trivial
      | some ft => cases ft <;> trivial
    | _ => exact iff_of_true rfl trivial
  | some range =>
    obtain ⟨lo, hi⟩ := range
    rcases range_cases hrange with ⟨htype, a, b, hr⟩ | ⟨htype, hr⟩
    · cases value with
      | string s =>
        simp only [RereadStable, htype, hrange]
        cases hn : RustText.parseI64 (RustText.trim s) with
        | none => simpa using reread_whole_text_iff htype hrange hr hn
        | some n => exact iff_of_true (reread_whole_string htype hrange hr hn) (.inl rfl)
      | integer k => exact iff_of_true (reread_whole_integer htype hrange hr) trivial
      | boolean b => exact iff_of_true reread_boolean trivial
      | stringArray items =>
        rw [clampInPlace_other fun s hs => by cases hs]
        exact iff_of_true (by simp only [reread, clampStartupNumeric, hrange]) trivial
      | integerArray items =>
        rw [clampInPlace_other fun s hs => by cases hs]
        exact iff_of_true (by simp only [reread, clampStartupNumeric, hrange]) trivial
    · cases value with
      | string s =>
        simp only [RereadStable, htype, hrange]
        exact reread_real_text_iff htype hrange hr
      | integer k => exact iff_of_true (reread_real_integer htype hrange hr) trivial
      | boolean b => exact iff_of_true reread_boolean trivial
      | stringArray items =>
        rw [clampInPlace_other fun s hs => by cases hs]
        exact iff_of_true (by simp only [reread, clampStartupNumeric, hrange]) trivial
      | integerArray items =>
        rw [clampInPlace_other fun s hs => by cases hs]
        exact iff_of_true (by simp only [reread, clampStartupNumeric, hrange]) trivial

theorem stripPrefix_append (p s : String) : RustText.stripPrefix (p ++ s) p = some s := by
  have hprefix : p.toList.isPrefixOf (p.toList ++ s.toList) = true :=
    List.isPrefixOf_iff_prefix.mpr (List.prefix_append _ _)
  rw [RustText.stripPrefix, RustText.startsWith, String.toList_append, if_pos hprefix,
    List.drop_left, String.ofList_toList]

theorem get_clampStartupOptionMap (values : Dict String OptValue) (suffix : String) :
    Dict.get? (clampStartupOptionMap values) ("revenue-ops-" ++ suffix) =
      (Dict.get? values ("revenue-ops-" ++ suffix)).map (clampInPlace (dbOverrideKey suffix)) := by
  have hclamp : clampOption ("revenue-ops-" ++ suffix) = clampInPlace (dbOverrideKey suffix) := by
    funext value
    rw [clampOption, stripPrefix_append]
  rw [Dict.get_of_rows_map (m := values) (f := clampOption) rfl, hclamp]

end Options

end ConfigResolve
