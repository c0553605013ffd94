import Mathlib.Data.List.TakeWhile
import RevenueOps.Binary64Order
import RevenueOps.RustText

/-! Doubles as text: str::parse for f64, and the Display of an f64, which writes the shortest
decimal that reads back, without an exponent. -/
namespace FloatText

open Binary64 RustFloat RustNumber

section Parse

def decimalValue (ds : List Char) : ℕ := ds.foldl (fun n c => 10 * n + (c.toNat - 48)) 0

def wholeDigits (cs : List Char) : List Char := cs.takeWhile Char.isDigit
def afterDigits (cs : List Char) : List Char := cs.dropWhile Char.isDigit

def exponentDigits : List Char → Option ℤ
  | '-' :: ds => (RustText.digits ds).map fun n : ℕ => -(n : ℤ)
  | '+' :: ds => (RustText.digits ds).map fun n : ℕ => (n : ℤ)
  | ds => (RustText.digits ds).map fun n : ℕ => (n : ℤ)

/-- What follows the digits of a number: nothing, or an exponent. -/
def parseExponent : List Char → Option ℤ
  | [] => some 0
  | c :: cs => if c = 'e' ∨ c = 'E' then exponentDigits cs else none

def scientific (mantissa : ℕ) (exponent : ℤ) : Float :=
  Float.ofModel (Float.Model.ofScientific mantissa exponent)

def parseDecimal (cs : List Char) : Option Float :=
  match afterDigits cs with
  | '.' :: rest =>
    let ds := wholeDigits cs ++ wholeDigits rest
    if ds = [] then none
    else (parseExponent (afterDigits rest)).map fun e =>
      scientific (decimalValue ds) (e - (wholeDigits rest).length)
  | rest =>
    if wholeDigits cs = [] then none
    else (parseExponent rest).map fun e => scientific (decimalValue (wholeDigits cs)) e

def nan : Float := Float.ofModel (Float.Model.pack .notANumber)
def infinity : Float := Float.ofModel (Float.Model.pack (.infinity .positive))

def parseWord (cs : List Char) : Option Float :=
  let word := String.ofList (cs.map Char.toLower)
  if word = "nan" then some nan
  else if word = "inf" ∨ word = "infinity" then some infinity
  else none

def parseMagnitude (cs : List Char) : Option Float := parseDecimal cs <|> parseWord cs

/-- str::parse for f64. -/
def parseF64 (s : String) : Option Float :=
  match s.toList with
  | '-' :: cs => (parseMagnitude cs).map fun x => -x
  | '+' :: cs => parseMagnitude cs
  | cs => parseMagnitude cs

end Parse

section Display

/-- The quotient `a / b` in units of `10 ^ -decimals`, rounded down. -/
def scaledDown (a b : ℕ) (decimals : ℤ) : ℕ :=
  a * 10 ^ decimals.toNat / (b * 10 ^ (-decimals).toNat)

/-- The coarsest decimal next to `a / b` that reads back as `x`, the nearer of two such. -/
def shortest (x : Float) (a b : ℕ) (decimals : ℤ) : ℕ → ℕ × ℤ
  | 0 => (scaledDown a b decimals, decimals)
  | fuel + 1 =>
    let down := scaledDown a b decimals
    let nearDown := 2 * (a * 10 ^ decimals.toNat) < (2 * down + 1) * (b * 10 ^ (-decimals).toNat)
    if scientific down (-decimals) = x ∧ (nearDown ∨ scientific (down + 1) (-decimals) ≠ x) then
      (down, decimals)
    else if scientific (down + 1) (-decimals) = x then (down + 1, decimals)
    else shortest x a b (decimals + 1) fuel

def positional (digits : ℕ) (decimals : ℤ) : List Char :=
  let ds := Nat.toDigits 10 digits
  if decimals ≤ 0 then ds ++ List.replicate (-decimals).toNat '0'
  else
    let padded := List.replicate (decimals.toNat + 1 - ds.length) '0' ++ ds
    padded.take (padded.length - decimals.toNat) ++
      '.' :: padded.drop (padded.length - decimals.toNat)

def signText : Float.Model.UnpackedFloat.Sign → List Char
  | .positive => []
  | .negative => ['-']

/-- The Display of an f64; no double needs more than 1100 decimals. -/
def displayF64 (x : Float) : String :=
  match x.toModel.unpack with
  | .notANumber => "NaN"
  | .infinity sign => String.ofList (signText sign ++ "inf".toList)
  | .zero sign => String.ofList (signText sign ++ ['0'])
  | .finite sign mantissa exponent _ =>
    let a := mantissa * 2 ^ exponent.toNat
    let b := 2 ^ (-exponent).toNat
    let (digits, decimals) :=
      shortest x.abs a b (-((Nat.toDigits 10 (a / b)).length : ℤ)) 1500
    String.ofList (signText sign ++ positional digits decimals)

/-- f64::fract. -/
def fractF64 (x : Float) : Float := x - toWhole (fun _ a b => a / b) x

end Display

section Integers

open Float.Model Float.Model.UnpackedFloat

theorem denotes_neg_ereal {x : Float} {v : EReal} (h : Denotes x v) : Denotes (-x) (-v) := by
  induction v with
  | coe a =>
    rw [← EReal.coe_neg]
    exact denotes_neg h
  | _ =>
    have hunpack : (-x).toModel.unpack = (Float.Model.pack x.toModel.unpack.neg).unpack := rfl
    rw [Denotes] at h ⊢
    rw [hunpack]
    cases hx : x.toModel.unpack with
    | infinity s =>
      rw [hx] at h
      cases s <;> cases h
      rfl
    | _ =>
      rw [hx] at h
      cases h

theorem denotes_scientific (n : ℕ) : ∃ v, Denotes (scientific n 0) v ∧ RoundsTo (n : ℝ) v := by
  by_cases hn : n = 0
  · subst hn
    exact ⟨((0 : ℝ) : EReal), value_zero .positive, by simpa using roundsTo_self 0⟩
  · have hpos : 0 < n := Nat.pos_of_ne_zero hn
    have hunpack : (scientific n 0).toModel.unpack = (Float.Model.pack (roundWithAccuracy
        Format.binary64 .positive (n <<< 53 * 10 ^ 0) (-53 + 0) .exact)).unpack := by
      change (Float.Model.pack (UnpackedFloat.ofScientific Format.binary64 n 0)).unpack = _
      rw [UnpackedFloat.ofScientific, dif_neg hn, if_neg (by decide), if_neg, if_pos le_rfl]
      · rfl
      · have hlog : (0 : ℤ) ≤ n.log2 := Int.natCast_nonneg _
        simp only [not_lt]
        change -((2 ^ 11 : ℤ) + n.log2) ≤ 0
        omega
    have hshift : n <<< 53 * 10 ^ 0 = n <<< 53 := by omega
    have hbig : 2 ^ 52 ≤ n <<< 53 := by
      rw [Nat.shiftLeft_eq]
      omega
    have hreal : (n : ℝ) = real .positive (n <<< 53) (-53 + 0) := by
      have h := real_shiftLeft .positive n 53 0
      rw [real_positive n 0, zpow_zero, mul_one] at h
      rw [← h]
      norm_num
    simp only [Denotes, hunpack, hshift]
    rw [hreal]
    obtain ⟨v, hv, hround⟩ := value_roundWithAccuracy .positive (by omega : 0 < n <<< 53)
      (.inl ((Nat.le_log2 (by omega)).mpr hbig))
    exact ⟨v, hv, hround.roundsTo⟩

theorem parseMagnitude_digits {cs : List Char} {n : ℕ} (h : RustText.digits cs = some n) :
    parseMagnitude cs = some (scientific n 0) := by
  rw [RustText.digits] at h
  split at h
  · rename_i hds
    obtain ⟨hne, hall⟩ := hds
    have hdigit : ∀ c ∈ cs, c.isDigit = true := List.all_eq_true.mp hall
    have hwhole : wholeDigits cs = cs := List.takeWhile_eq_self_iff.mpr hdigit
    have hafter : afterDigits cs = [] := List.dropWhile_eq_nil_iff.mpr hdigit
    cases h
    have hdecimal : parseDecimal cs = some (scientific (decimalValue cs) 0) := by
      rw [parseDecimal, hafter]
      simp only [hwhole, if_neg hne]
      rfl
    rw [parseMagnitude, hdecimal]
    rfl
  · cases h

/-- A row of digits, with or without a sign, and the integer it spells. -/
def SignedDigits (s : String) (n : ℤ) : Prop :=
  (∃ cs k, s.toList = '-' :: cs ∧ RustText.digits cs = some k ∧ n = -k) ∨
    ∃ cs k, (s.toList = '+' :: cs ∨ (s.toList = cs ∧ cs.head? ≠ some '-' ∧ cs.head? ≠ some '+')) ∧
      RustText.digits cs = some k ∧ n = k

variable {s : String} {n : ℤ}

theorem signedDigits_of_parseI64 (h : RustText.parseI64 s = some n) : SignedDigits s n := by
  have hvalue := (Option.filter_eq_some_iff.mp h).1
  split at hvalue
  · rename_i cs hcs
    cases hk : RustText.digits cs with
    | none => simp [hk] at hvalue
    | some k =>
      simp only [hk, bind, Option.bind, pure, Option.map_some, Option.some.injEq] at hvalue
      exact .inl ⟨cs, k, hcs, hk, hvalue.symm⟩
  · rename_i cs hcs
    cases hk : RustText.digits cs with
    | none => simp [hk] at hvalue
    | some k =>
      simp only [hk, bind, Option.bind, pure, Option.map_some, Option.some.injEq] at hvalue
      exact .inr ⟨cs, k, .inl hcs, hk, hvalue.symm⟩
  · rename_i cs hminus hplus
    cases hk : RustText.digits s.toList with
    | none => simp [hk] at hvalue
    | some k =>
      simp only [hk, bind, Option.bind, pure, Option.map_some, Option.some.injEq] at hvalue
      refine .inr ⟨s.toList, k, .inr ⟨rfl, ?_, ?_⟩, hk, hvalue.symm⟩
      · intro hhead
        obtain ⟨ds, hds⟩ := List.head?_eq_some_iff.mp hhead
        exact hminus ds hds
      · intro hhead
        obtain ⟨ds, hds⟩ := List.head?_eq_some_iff.mp hhead
        exact hplus ds hds

theorem digits_toDigits (k : ℕ) : RustText.digits (Nat.toDigits 10 k) = some k := by
  have hall : (Nat.toDigits 10 k).all Char.isDigit = true :=
    List.all_eq_true.mpr fun c hc => Nat.isDigit_of_mem_toDigits (by decide) (by decide) hc
  rw [RustText.digits, if_pos ⟨Nat.toDigits_ne_nil, hall⟩]
  exact congrArg some (Nat.ofDigitChars_toDigits (by decide) (by decide))

theorem signedDigits_toString (n : ℤ) : SignedDigits (toString n) n := by
  rw [SignedDigits, Int.toString_eq_repr, Int.repr_eq_if]
  by_cases hn : 0 ≤ n
  · rw [if_pos hn, Nat.toList_repr]
    have hdigit : ∀ c ∈ (Nat.toDigits 10 n.toNat).head?, c.isDigit = true := fun c hc =>
      Nat.isDigit_of_mem_toDigits (by decide) (by decide) (List.mem_of_mem_head? hc)
    refine .inr ⟨_, _, .inr ⟨rfl, ?_, ?_⟩, digits_toDigits _, by omega⟩
    · intro h
      exact absurd (hdigit _ h) (by decide)
    · intro h
      exact absurd (hdigit _ h) (by decide)
  · rw [if_neg hn, String.toList_append, Nat.toList_repr]
    exact .inl ⟨_, _, rfl, digits_toDigits _, by omega⟩

theorem SignedDigits.parseI64 (h : SignedDigits s n) (hn : InI64 n) :
    RustText.parseI64 s = some n := by
  apply Option.filter_eq_some_iff.mpr
  refine ⟨?_, decide_eq_true hn⟩
  rcases h with ⟨cs, k, hcs, hk, rfl⟩ | ⟨cs, k, hcs, hk, rfl⟩
  · rw [hcs]
    simp [hk]
  · rcases hcs with hcs | ⟨hcs, hminus, hplus⟩
    · rw [hcs]
      simp [hk]
    · rw [hcs]
      split
      · exact absurd rfl hminus
      · exact absurd rfl hplus
      · simp [hk]

/-- Digits are the text of a double: the one their integer is rounded to. -/
theorem SignedDigits.parseF64 (h : SignedDigits s n) :
    ∃ x v, FloatText.parseF64 s = some x ∧ Denotes x v ∧ RoundsTo (n : ℝ) v := by
  rcases h with ⟨cs, k, hcs, hk, rfl⟩ | ⟨cs, k, hcs, hk, rfl⟩
  · obtain ⟨v, hv, hround⟩ := denotes_scientific k
    refine ⟨-scientific k 0, -v, ?_, denotes_neg_ereal hv, ?_⟩
    · rw [FloatText.parseF64, hcs]
      simp only [parseMagnitude_digits hk, Option.map_some]
    · push_cast
      exact hround.neg
  · obtain ⟨v, hv, hround⟩ := denotes_scientific k
    refine ⟨scientific k 0, v, ?_, hv, by exact_mod_cast hround⟩
    rcases hcs with hcs | ⟨hcs, hminus, hplus⟩
    · rw [FloatText.parseF64, hcs]
      exact parseMagnitude_digits hk
    · rw [FloatText.parseF64, hcs]
      split
      · exact absurd rfl hminus
      · exact absurd rfl hplus
      · exact parseMagnitude_digits hk

end Integers

section Solid

abbrev Solid (c : Char) : Prop := RustText.isWhitespace c = false

theorem solid_of_isDigit {c : Char} (h : c.isDigit = true) : Solid c := by
  have hlo : 48 ≤ c.toNat := by
    simp only [Char.isDigit, Bool.and_eq_true, decide_eq_true_eq] at h
    exact h.1
  have hhi : c.toNat ≤ 57 := by
    simp only [Char.isDigit, Bool.and_eq_true, decide_eq_true_eq] at h
    exact h.2
  simp only [Solid, RustText.isWhitespace, Bool.or_eq_false_iff, Bool.and_eq_false_iff,
    decide_eq_false_iff_not, beq_eq_false_iff_ne]
  omega

theorem solid_of_toLower {c : Char} (h : Solid c.toLower) : Solid c := by
  by_cases hup : 65 ≤ c.toNat ∧ c.toNat ≤ 90
  · simp only [Solid, RustText.isWhitespace, Bool.or_eq_false_iff, Bool.and_eq_false_iff,
      decide_eq_false_iff_not, beq_eq_false_iff_ne]
    omega
  · have hsame : c.toLower = c := dif_neg fun hcase => hup ⟨hcase.1, hcase.2⟩
    rwa [hsame] at h

theorem solid_digits {cs : List Char} {k : ℕ} (h : RustText.digits cs = some k) :
    ∀ c ∈ cs, Solid c := by
  rw [RustText.digits] at h
  split at h
  · rename_i hds
    intro c hc
    exact solid_of_isDigit (List.all_eq_true.mp hds.2 c hc)
  · cases h

theorem solid_exponentDigits {cs : List Char} {e : ℤ} (h : exponentDigits cs = some e) :
    ∀ c ∈ cs, Solid c := by
  unfold exponentDigits at h
  split at h
  · obtain ⟨k, hk, -⟩ := Option.map_eq_some_iff.mp h
    exact List.forall_mem_cons.mpr ⟨rfl, solid_digits hk⟩
  · obtain ⟨k, hk, -⟩ := Option.map_eq_some_iff.mp h
    exact List.forall_mem_cons.mpr ⟨rfl, solid_digits hk⟩
  · obtain ⟨k, hk, -⟩ := Option.map_eq_some_iff.mp h
    exact solid_digits hk

theorem solid_parseExponent {cs : List Char} {e : ℤ} (h : parseExponent cs = some e) :
    ∀ c ∈ cs, Solid c := by
  cases cs with
  | nil => simp
  | cons c cs =>
    change (if c = 'e' ∨ c = 'E' then exponentDigits cs else none) = some e at h
    split at h
    · rename_i hc
      have hsolid : Solid c := by rcases hc with rfl | rfl <;> rfl
      exact List.forall_mem_cons.mpr ⟨hsolid, solid_exponentDigits h⟩
    · cases h

theorem solid_around {cs rest : List Char} (h : afterDigits cs = rest)
    (hrest : ∀ c ∈ rest, Solid c) : ∀ c ∈ cs, Solid c := by
  intro c hc
  rw [← List.takeWhile_append_dropWhile (p := Char.isDigit) (l := cs)] at hc
  rcases List.mem_append.mp hc with hc | hc
  · exact solid_of_isDigit (List.mem_takeWhile_imp hc)
  · exact hrest c (h ▸ hc)

theorem solid_parseDecimal {cs : List Char} {x : Float} (h : parseDecimal cs = some x) :
    ∀ c ∈ cs, Solid c := by
  rw [parseDecimal] at h
  split at h
  · rename_i rest hafter
    simp only at h
    split at h
    · cases h
    · obtain ⟨e, he, -⟩ := Option.map_eq_some_iff.mp h
      exact solid_around hafter
        (List.forall_mem_cons.mpr ⟨rfl, solid_around rfl (solid_parseExponent he)⟩)
  · split at h
    · cases h
    · obtain ⟨e, he, -⟩ := Option.map_eq_some_iff.mp h
      exact solid_around rfl (solid_parseExponent he)

theorem solid_of_all {cs : List Char} (h : cs.all (fun c => !RustText.isWhitespace c) = true) :
    ∀ c ∈ cs, Solid c := by
  intro c hc
  have hc := List.all_eq_true.mp h c hc
  simpa using hc

theorem solid_parseWord {cs : List Char} {x : Float} (h : parseWord cs = some x) :
    ∀ c ∈ cs, Solid c := by
  have hword : cs.map Char.toLower = "nan".toList ∨ cs.map Char.toLower = "inf".toList ∨
      cs.map Char.toLower = "infinity".toList := by
    simp only [parseWord] at h
    split at h
    · rename_i hnan
      exact .inl (by rw [← hnan, String.toList_ofList])
    · split at h
      · rename_i hinf
        rcases hinf with hinf | hinf
        · exact .inr (.inl (by rw [← hinf, String.toList_ofList]))
        · exact .inr (.inr (by rw [← hinf, String.toList_ofList]))
      · cases h
  have hsolid : ∀ d ∈ cs.map Char.toLower, Solid d := by
    rcases hword with hword | hword | hword <;> rw [hword] <;> exact solid_of_all rfl
  exact fun c hc => solid_of_toLower (hsolid _ (List.mem_map_of_mem hc))

theorem solid_parseMagnitude {cs : List Char} {x : Float} (h : parseMagnitude cs = some x) :
    ∀ c ∈ cs, Solid c := by
  rw [parseMagnitude] at h
  cases hdecimal : parseDecimal cs with
  | none =>
    rw [hdecimal] at h
    exact solid_parseWord h
  | some y => exact solid_parseDecimal hdecimal

theorem trim_of_parseF64 {s : String} {x : Float} (h : parseF64 s = some x) :
    RustText.trim s = s := by
  apply RustText.trim_of_solid
  rw [parseF64] at h
  split at h
  · rename_i cs hcs
    obtain ⟨y, hy, -⟩ := Option.map_eq_some_iff.mp h
    rw [hcs]
    exact List.forall_mem_cons.mpr ⟨rfl, solid_parseMagnitude hy⟩
  · rename_i cs hcs
    rw [hcs]
    exact List.forall_mem_cons.mpr ⟨rfl, solid_parseMagnitude h⟩
  · exact solid_parseMagnitude h

theorem trim_of_parseI64 {s : String} {n : ℤ} (h : RustText.parseI64 s = some n) :
    RustText.trim s = s := by
  obtain ⟨x, -, hx, -⟩ := (signedDigits_of_parseI64 h).parseF64
  exact trim_of_parseF64 hx

end Solid

end FloatText
