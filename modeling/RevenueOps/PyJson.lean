import RevenueOps.FloatText
import RevenueOps.PyValue

/-! Python's json as the persisted state uses it: the reads of a tree and the hand-written parser.
The parser works on the characters that are left; a recursion takes one unit of fuel. -/
namespace PyJson

open RustFloat RustNumber FloatText

namespace OValue

def asObj : OValue → Option (List (String × OValue))
  | obj entries => some entries
  | _ => none

def asArr : OValue → Option (List OValue)
  | arr items => some items
  | _ => none

def asStr : OValue → Option String
  | str s => some s
  | _ => none

def asF64 : OValue → Option Float
  | int i => some (RustNumber.asF64 i)
  | float f => some f
  | _ => none

def asI64 : OValue → Option ℤ
  | int i => some i
  | float f => if f.isFinite then some (RustNumber.asI64 f) else none
  | bool b => some (if b then 1 else 0)
  | _ => none

def get (v : OValue) (key : String) : Option OValue :=
  match v with
  | obj entries => (entries.find? fun e => e.1 = key).map Prod.snd
  | _ => none

def isInt : OValue → Bool
  | int _ => true
  | _ => false

end OValue

/-- The parser's errors; a list is the text that is left where the error is found. -/
inductive ParseError where
  | expected (c : Char) (got : Option Char) (rest : List Char)
  | unexpected (got : Option Char) (rest : List Char)
  | separator (close : Char) (got : Option Char)
  | unterminatedString
  | invalidEscape (got : Option Char)
  | truncatedUnicode
  | invalidHexDigit
  | invalidLowSurrogate
  | invalidSurrogatePair
  | invalidUnicode
  | badFloat (text : List Char)
  | badInt (text : List Char)
  | trailingData (rest : List Char)
  | outOfFuel
  deriving DecidableEq

/-- What a piece of the parser reads, and the text that it leaves. -/
abbrev Scan (α : Type) := α × List Char

abbrev Parsed := Except ParseError

section Parser

def isWs (c : Char) : Bool := c = ' ' || c = '\t' || c = '\n' || c = '\r'

def skipWs (cs : List Char) : List Char := cs.dropWhile isWs

def expect (c : Char) : List Char → Parsed (List Char)
  | [] => .error (.expected c none [])
  | d :: cs => if d = c then .ok cs else .error (.expected c (some d) cs)

def expectLit : List Char → List Char → Parsed (List Char)
  | [], cs => .ok cs
  | c :: lit, cs => do expectLit lit (← expect c cs)

/-- char::to_digit with radix 16. -/
def toDigit16 (c : Char) : Option ℕ :=
  if '0' ≤ c ∧ c ≤ '9' then some (c.toNat - 48)
  else if 'a' ≤ c ∧ c ≤ 'f' then some (c.toNat - 87)
  else if 'A' ≤ c ∧ c ≤ 'F' then some (c.toNat - 55)
  else none

/-- char::from_u32: a surrogate is not a character. -/
def fromU32 (n : ℕ) : Option Char := if n.isValidChar then some (Char.ofNat n) else none

def parseHex : ℕ → ℕ → List Char → Parsed (Scan ℕ)
  | 0, v, cs => .ok (v, cs)
  | _ + 1, _, [] => .error .truncatedUnicode
  | n + 1, v, c :: cs =>
    match toDigit16 c with
    | none => .error .invalidHexDigit
    | some d => parseHex n (v * 16 + d) cs

def parseHex4 (cs : List Char) : Parsed (Scan ℕ) := parseHex 4 0 cs

def isHighSurrogate (n : ℕ) : Bool := 0xd800 ≤ n && n ≤ 0xdbff
def isLowSurrogate (n : ℕ) : Bool := 0xdc00 ≤ n && n ≤ 0xdfff

def surrogatePair (hi lo : ℕ) : ℕ := 0x10000 + (hi - 0xd800) * 1024 + (lo - 0xdc00)

def scanChar (n : ℕ) (otherwise : ParseError) (cs : List Char) : Parsed (Scan Char) :=
  match fromU32 n with
  | some c => .ok (c, cs)
  | none => .error otherwise

/-- The character of a surrogate pair whose second half has been read. -/
def lowHalf (hi : ℕ) (lo : Scan ℕ) : Parsed (Scan Char) :=
  if isLowSurrogate lo.1 then scanChar (surrogatePair hi lo.1) .invalidSurrogatePair lo.2
  else .error .invalidLowSurrogate

def parseLow (hi : ℕ) (cs : List Char) : Parsed (Scan Char) := do
  let cs ← expect '\\' cs
  let cs ← expect 'u' cs
  let lo ← parseHex4 cs
  lowHalf hi lo

/-- The character of an escape whose digits have been read; the first half of a pair needs the
second. -/
def unicodeChar (cp : Scan ℕ) : Parsed (Scan Char) :=
  if isHighSurrogate cp.1 then parseLow cp.1 cp.2 else scanChar cp.1 .invalidUnicode cp.2

def parseUnicode (cs : List Char) : Parsed (Scan Char) := do
  let cp ← parseHex4 cs
  unicodeChar cp

def parseEscape : List Char → Parsed (Scan Char)
  | '"' :: cs => .ok ('"', cs)
  | '\\' :: cs => .ok ('\\', cs)
  | '/' :: cs => .ok ('/', cs)
  | 'b' :: cs => .ok (Char.ofNat 0x08, cs)
  | 'f' :: cs => .ok (Char.ofNat 0x0c, cs)
  | 'n' :: cs => .ok ('\n', cs)
  | 'r' :: cs => .ok ('\r', cs)
  | 't' :: cs => .ok ('\t', cs)
  | 'u' :: cs => parseUnicode cs
  | cs => .error (.invalidEscape cs.head?)

/-- The characters of a string up to its closing quote. -/
def parseChars : ℕ → List Char → Parsed (Scan (List Char))
  | 0, _ => .error .outOfFuel
  | _ + 1, [] => .error .unterminatedString
  | _ + 1, '"' :: cs => .ok ([], cs)
  | n + 1, '\\' :: cs => do
    let (c, cs) ← parseEscape cs
    let (out, cs) ← parseChars n cs
    .ok (c :: out, cs)
  | n + 1, c :: cs => do
    let (out, cs) ← parseChars n cs
    .ok (c :: out, cs)

def parseString (cs : List Char) : Parsed (Scan String) := do
  let cs ← expect '"' cs
  let (out, cs) ← parseChars (cs.length + 1) cs
  .ok (String.ofList out, cs)

/-- A part of a number: the text it takes, and the text that it leaves. -/
abbrev Span := List Char × List Char

def spanDigits (cs : List Char) : Span := cs.span Char.isDigit

def spanFraction : List Char → Span
  | '.' :: cs => ('.' :: (spanDigits cs).1, (spanDigits cs).2)
  | cs => ([], cs)

def spanSign : List Char → Span
  | '+' :: cs => (['+'], cs)
  | '-' :: cs => (['-'], cs)
  | cs => ([], cs)

def spanSignedDigits (cs : List Char) : Span :=
  ((spanSign cs).1 ++ (spanDigits (spanSign cs).2).1, (spanDigits (spanSign cs).2).2)

def spanExponent : List Char → Span
  | 'e' :: cs => ('e' :: (spanSignedDigits cs).1, (spanSignedDigits cs).2)
  | 'E' :: cs => ('E' :: (spanSignedDigits cs).1, (spanSignedDigits cs).2)
  | cs => ([], cs)

def numberValue (isFloat : Bool) (text : List Char) : Parsed OValue :=
  let s := String.ofList text
  if isFloat then
    match parseF64 s with
    | some f => .ok (.float f)
    | none => .error (.badFloat text)
  else
    match RustText.parseI64 s with
    | some i => .ok (.int i)
    | none =>
      match parseF64 s with
      | some f => .ok (.float f)
      | none => .error (.badInt text)

/-- The digits of a number and what may follow them, after the sign. -/
def parseUnsigned (sign cs : List Char) : Parsed (Scan OValue) := do
  let (whole, cs) := spanDigits cs
  let (fraction, cs) := spanFraction cs
  let (exponent, cs) := spanExponent cs
  let isFloat := !fraction.isEmpty || !exponent.isEmpty
  let v ← numberValue isFloat (sign ++ whole ++ fraction ++ exponent)
  .ok (v, cs)

def parseNumber : List Char → Parsed (Scan OValue)
  | '-' :: 'I' :: cs => do
    let cs ← expectLit "Infinity".toList ('I' :: cs)
    .ok (.float (-infinity), cs)
  | '-' :: cs => parseUnsigned ['-'] cs
  | cs => parseUnsigned [] cs

def parseLit (lit : String) (v : OValue) (cs : List Char) : Parsed (Scan OValue) := do
  let cs ← expectLit lit.toList cs
  .ok (v, cs)

mutual

def parseValue : ℕ → List Char → Parsed (Scan OValue)
  | 0, _ => .error .outOfFuel
  | n + 1, cs =>
    match skipWs cs with
    | '\x7b' :: cs =>
      match skipWs cs with
      | '\x7d' :: cs => .ok (.obj [], cs)
      | cs => do
        let (entries, cs) ← parseEntries n cs
        .ok (.obj entries, cs)
    | '[' :: cs =>
      match skipWs cs with
      | ']' :: cs => .ok (.arr [], cs)
      | cs => do
        let (items, cs) ← parseItems n cs
        .ok (.arr items, cs)
    | '"' :: cs => do
      let (s, cs) ← parseString ('"' :: cs)
      .ok (.str s, cs)
    | 't' :: cs => parseLit "true" (.bool true) ('t' :: cs)
    | 'f' :: cs => parseLit "false" (.bool false) ('f' :: cs)
    | 'n' :: cs => parseLit "null" .null ('n' :: cs)
    | 'N' :: cs => parseLit "NaN" (.float nan) ('N' :: cs)
    | 'I' :: cs => parseLit "Infinity" (.float infinity) ('I' :: cs)
    | c :: cs =>
      if c = '-' ∨ c.isDigit then parseNumber (c :: cs)
      else .error (.unexpected (some c) (c :: cs))
    | [] => .error (.unexpected none [])

def parseEntries : ℕ → List Char → Parsed (Scan (List (String × OValue)))
  | 0, _ => .error .outOfFuel
  | n + 1, cs => do
    let (key, cs) ← parseString (skipWs cs)
    let cs ← expect ':' (skipWs cs)
    let (v, cs) ← parseValue n cs
    match skipWs cs with
    | ',' :: cs => do
      let (entries, cs) ← parseEntries n cs
      .ok ((key, v) :: entries, cs)
    | '\x7d' :: cs => .ok ([(key, v)], cs)
    | cs => .error (.separator '\x7d' cs.head?)

def parseItems : ℕ → List Char → Parsed (Scan (List OValue))
  | 0, _ => .error .outOfFuel
  | n + 1, cs => do
    let (v, cs) ← parseValue n cs
    match skipWs cs with
    | ',' :: cs => do
      let (items, cs) ← parseItems n cs
      .ok (v :: items, cs)
    | ']' :: cs => .ok ([v], cs)
    | cs => .error (.separator ']' cs.head?)

end

/-- A recursion reads a character at the latest in its second call. -/
def parse (s : String) : Parsed OValue := do
  let cs := skipWs s.toList
  let (v, cs) ← parseValue (2 * cs.length + 1) cs
  match skipWs cs with
  | [] => .ok v
  | cs => .error (.trailingData cs)

end Parser

section Scanning

def Sound {α : Type} (P : α → Prop) : Parsed α → Prop
  | .ok a => P a
  | .error e => e ≠ .outOfFuel

variable {α β : Type} {P : α → Prop} {Q : β → Prop} {cs : List Char}

theorem Sound.bind {r : Parsed α} {f : α → Parsed β} (hr : Sound P r)
    (hf : ∀ a, P a → Sound Q (f a)) : Sound Q (r >>= f) := by
  cases r with
  | ok a => exact hf a hr
  | error e => exact hr

theorem Sound.mono {P' : α → Prop} {r : Parsed α} (hr : Sound P r) (h : ∀ a, P a → P' a) :
    Sound P' r := by
  cases r with
  | ok a => exact h a hr
  | error e => exact hr

def Shorter (cs : List Char) (r : Scan α) : Prop := r.2.length < cs.length

theorem length_skipWs (cs : List Char) : (skipWs cs).length ≤ cs.length :=
  (List.dropWhile_suffix isWs).length_le

theorem sound_expect (c : Char) (cs : List Char) :
    Sound (fun rest => rest.length < cs.length) (expect c cs) := by
  cases cs with
  | nil => exact nofun
  | cons d cs =>
    rw [expect]
    split
    · exact Nat.lt_succ_self _
    · exact nofun

theorem sound_expectLit (lit cs : List Char) :
    Sound (fun rest => rest.length + lit.length ≤ cs.length) (expectLit lit cs) := by
  induction lit generalizing cs with
  | nil => exact Nat.le_refl _
  | cons c lit ih =>
    refine (sound_expect c cs).bind fun rest hrest => (ih rest).mono fun rest' hrest' => ?_
    rw [List.length_cons]
    omega

theorem sound_parseHex (n v : ℕ) (cs : List Char) :
    Sound (fun r => r.2.length ≤ cs.length) (parseHex n v cs) := by
  induction n generalizing v cs with
  | zero => exact Nat.le_refl _
  | succ n ih =>
    cases cs with
    | nil => exact nofun
    | cons c cs =>
      rw [parseHex]
      split
      · exact nofun
      · exact (ih _ cs).mono fun r hr => hr.trans (Nat.le_succ _)

theorem sound_scanChar {n : ℕ} {otherwise : ParseError} (h : otherwise ≠ .outOfFuel)
    (cs : List Char) : Sound (fun r => r.2.length ≤ cs.length) (scanChar n otherwise cs) := by
  rw [scanChar]
  split
  · exact Nat.le_refl _
  · exact h

theorem sound_lowHalf (hi : ℕ) (lo : Scan ℕ) :
    Sound (fun r => r.2.length ≤ lo.2.length) (lowHalf hi lo) := by
  have hne : ParseError.invalidSurrogatePair ≠ .outOfFuel := nofun
  rw [lowHalf]
  split
  · exact sound_scanChar hne lo.2
  · exact nofun

theorem sound_parseLow (hi : ℕ) (cs : List Char) :
    Sound (fun r => r.2.length ≤ cs.length) (parseLow hi cs) :=
  (sound_expect _ cs).bind fun rest hrest => (sound_expect _ rest).bind fun rest' hrest' =>
    (sound_parseHex 4 0 rest').bind fun lo hlo => (sound_lowHalf hi lo).mono fun _ hr =>
      hr.trans (hlo.trans (hrest'.le.trans hrest.le))

theorem sound_unicodeChar (cp : Scan ℕ) :
    Sound (fun r => r.2.length ≤ cp.2.length) (unicodeChar cp) := by
  have hne : ParseError.invalidUnicode ≠ .outOfFuel := nofun
  rw [unicodeChar]
  split
  · exact sound_parseLow cp.1 cp.2
  · exact sound_scanChar hne cp.2

theorem sound_parseUnicode (cs : List Char) :
    Sound (fun r => r.2.length ≤ cs.length) (parseUnicode cs) :=
  (sound_parseHex 4 0 cs).bind fun cp hcp => (sound_unicodeChar cp).mono fun _ hr => hr.trans hcp

theorem sound_parseEscape (cs : List Char) : Sound (Shorter cs) (parseEscape cs) := by
  rw [parseEscape.eq_def]
  split
  case h_9 cs => exact (sound_parseUnicode cs).mono fun r hr => Nat.lt_succ_of_le hr
  case h_10 => exact nofun
  all_goals exact Nat.lt_succ_self _

theorem sound_parseChars (n : ℕ) (cs : List Char) (h : cs.length < n) :
    Sound (Shorter cs) (parseChars n cs) := by
  induction n generalizing cs with
  | zero => exact absurd h (Nat.not_lt_zero _)
  | succ n ih =>
    have hstep (c : Char) (rest : List Char) (hrest : rest.length < cs.length) :
        Sound (Shorter cs) (do
          let (out, rest) ← parseChars n rest
          .ok (c :: out, rest)) :=
      (ih rest (by omega)).bind fun r hr => hr.trans hrest
    rw [parseChars.eq_def]
    split
    · rename_i heq
      cases heq
    · exact nofun
    · exact Nat.lt_succ_self _
    · rename_i m rest heq
      cases heq
      refine (sound_parseEscape rest).bind ?_
      rintro ⟨c, last⟩ hlast
      exact hstep c last (hlast.trans (Nat.lt_succ_self _))
    · rename_i m c rest _ _ heq
      cases heq
      exact hstep c rest (Nat.lt_succ_self _)

theorem sound_parseString (cs : List Char) : Sound (Shorter cs) (parseString cs) :=
  (sound_expect _ cs).bind fun rest hrest =>
    (sound_parseChars _ rest (Nat.lt_succ_self _)).bind fun _ hr => hr.trans hrest

end Scanning

section Values

inductive OValue.Fits : OValue → Prop where
  | null : Fits .null
  | bool (b : Bool) : Fits (.bool b)
  | int {i : ℤ} (h : InI64 i) : Fits (.int i)
  | float (f : Float) : Fits (.float f)
  | str (s : String) : Fits (.str s)
  | arr {items : List OValue} (h : ∀ v ∈ items, Fits v) : Fits (.arr items)
  | obj {entries : List (String × OValue)} (h : ∀ e ∈ entries, Fits e.2) : Fits (.obj entries)

def ReadsValue (cs : List Char) (r : Scan OValue) : Prop := r.1.Fits ∧ Shorter cs r

theorem length_spanDigits (cs : List Char) : (spanDigits cs).2.length ≤ cs.length := by
  rw [spanDigits, List.span_eq_takeWhile_dropWhile]
  exact (List.dropWhile_suffix _).length_le

theorem length_spanDigits_cons {c : Char} (h : c.isDigit = true) (cs : List Char) :
    (spanDigits (c :: cs)).2.length < (c :: cs).length := by
  rw [spanDigits, List.span_eq_takeWhile_dropWhile, List.dropWhile_cons_of_pos h]
  exact Nat.lt_succ_of_le (List.dropWhile_suffix _).length_le

theorem length_spanFraction (cs : List Char) : (spanFraction cs).2.length ≤ cs.length := by
  rw [spanFraction.eq_def]
  split
  · exact (length_spanDigits _).trans (Nat.le_succ _)
  · exact Nat.le_refl _

theorem length_spanSign (cs : List Char) : (spanSign cs).2.length ≤ cs.length := by
  rw [spanSign.eq_def]
  split
  · exact Nat.le_succ _
  · exact Nat.le_succ _
  · exact Nat.le_refl _

theorem length_spanExponent (cs : List Char) : (spanExponent cs).2.length ≤ cs.length := by
  have hsigned (rest : List Char) : (spanSignedDigits rest).2.length ≤ rest.length :=
    (length_spanDigits _).trans (length_spanSign rest)
  rw [spanExponent.eq_def]
  split
  · exact (hsigned _).trans (Nat.le_succ _)
  · exact (hsigned _).trans (Nat.le_succ _)
  · exact Nat.le_refl _

theorem inI64_of_parseI64 {s : String} {n : ℤ} (h : RustText.parseI64 s = some n) : InI64 n := by
  rw [RustText.parseI64, Option.filter_eq_some_iff] at h
  exact of_decide_eq_true h.2

theorem sound_numberValue (isFloat : Bool) (text : List Char) :
    Sound OValue.Fits (numberValue isFloat text) := by
  rw [numberValue]
  split
  · split
    · exact .float _
    · exact nofun
  · split
    · rename_i i hi
      exact .int (inI64_of_parseI64 hi)
    · split
      · exact .float _
      · exact nofun

theorem sound_parseUnsigned (sign cs : List Char) :
    Sound (fun r => r.1.Fits ∧ r.2.length ≤ (spanDigits cs).2.length) (parseUnsigned sign cs) :=
  (sound_numberValue _ _).bind fun _ hv =>
    ⟨hv, (length_spanExponent _).trans (length_spanFraction _)⟩

theorem sound_parseNumber {c : Char} {cs : List Char} (h : c = '-' ∨ c.isDigit = true) :
    Sound (ReadsValue (c :: cs)) (parseNumber (c :: cs)) := by
  rw [parseNumber.eq_def]
  split
  · rename_i rest heq
    cases heq
    refine (sound_expectLit _ _).bind fun left hleft => ⟨.float _, ?_⟩
    change left.length < _
    rw [List.length_cons, List.length_cons] at *
    omega
  · rename_i rest _ heq
    cases heq
    exact (sound_parseUnsigned _ _).mono fun r hr =>
      ⟨hr.1, Nat.lt_succ_of_le (hr.2.trans (length_spanDigits _))⟩
  · rename_i hinfinity hminus
    have hdigit : c.isDigit = true := h.resolve_left fun hc => hminus cs (hc ▸ rfl)
    exact (sound_parseUnsigned _ _).mono fun r hr =>
      ⟨hr.1, hr.2.trans_lt (length_spanDigits_cons hdigit cs)⟩

theorem sound_parseLit {lit : String} {v : OValue} (hv : v.Fits) (hlit : 0 < lit.toList.length)
    (cs : List Char) : Sound (ReadsValue cs) (parseLit lit v cs) := by
  refine (sound_expectLit _ cs).bind fun left hleft => ⟨hv, ?_⟩
  change left.length < cs.length
  omega

structure Sufficient (n : ℕ) : Prop where
  value : ∀ cs, 2 * cs.length + 1 ≤ n → Sound (ReadsValue cs) (parseValue n cs)
  entries : ∀ cs, 2 * cs.length + 1 ≤ n →
    Sound (fun r => (∀ e ∈ r.1, e.2.Fits) ∧ Shorter cs r) (parseEntries n cs)
  items : ∀ cs, 2 * cs.length + 2 ≤ n →
    Sound (fun r => (∀ v ∈ r.1, v.Fits) ∧ Shorter cs r) (parseItems n cs)

variable {n : ℕ} {cs : List Char}

theorem ReadsValue.of_skipWs {r : Scan OValue} (h : ReadsValue (skipWs cs) r) : ReadsValue cs r :=
  ⟨h.1, lt_of_lt_of_le h.2 (length_skipWs cs)⟩

theorem sound_object (ih : Sufficient n) {rest : List Char} (h : 2 * rest.length + 1 ≤ n) :
    Sound (ReadsValue ('\x7b' :: rest)) (match skipWs rest with
      | '\x7d' :: cs => .ok (.obj [], cs)
      | cs => do
        let (entries, cs) ← parseEntries n cs
        .ok (.obj entries, cs)) := by
  have hws := length_skipWs rest
  split
  · rename_i left heq
    rw [heq, List.length_cons] at hws
    exact ⟨.obj (by simp), by
      change left.length < _
      rw [List.length_cons]
      omega⟩
  · refine (ih.entries _ (by omega)).bind fun r hr => ⟨.obj hr.1, ?_⟩
    exact hr.2.trans (Nat.lt_succ_of_le hws)

theorem sound_array (ih : Sufficient n) {rest : List Char} (h : 2 * rest.length + 2 ≤ n) :
    Sound (ReadsValue ('[' :: rest)) (match skipWs rest with
      | ']' :: cs => .ok (.arr [], cs)
      | cs => do
        let (items, cs) ← parseItems n cs
        .ok (.arr items, cs)) := by
  have hws := length_skipWs rest
  split
  · rename_i left heq
    rw [heq, List.length_cons] at hws
    exact ⟨.arr (by simp), by
      change left.length < _
      rw [List.length_cons]
      omega⟩
  · refine (ih.items _ (by omega)).bind fun r hr => ⟨.arr hr.1, ?_⟩
    exact hr.2.trans (Nat.lt_succ_of_le hws)

theorem sound_parseValue_succ (ih : Sufficient n) (h : 2 * cs.length ≤ n) :
    Sound (ReadsValue cs) (parseValue (n + 1) cs) := by
  refine Sound.mono (P := ReadsValue (skipWs cs)) ?_ fun _ hr => hr.of_skipWs
  have hws := length_skipWs cs
  rw [parseValue]
  generalize skipWs cs = ds at hws ⊢
  split
  · rename_i rest
    rw [List.length_cons] at hws
    exact sound_object ih (by omega)
  · rename_i rest
    rw [List.length_cons] at hws
    exact sound_array ih (by omega)
  · exact (sound_parseString _).bind fun r hr => ⟨.str _, hr⟩
  · exact sound_parseLit (.bool _) (by decide) _
  · exact sound_parseLit (.bool _) (by decide) _
  · exact sound_parseLit .null (by decide) _
  · exact sound_parseLit (.float _) (by decide) _
  · exact sound_parseLit (.float _) (by decide) _
  · split
    · rename_i hnumber
      exact sound_parseNumber hnumber
    · exact nofun
  · exact nofun

theorem sound_parseEntries_succ (ih : Sufficient n) (h : 2 * cs.length ≤ n) :
    Sound (fun r => (∀ e ∈ r.1, e.2.Fits) ∧ Shorter cs r) (parseEntries (n + 1) cs) := by
  have hws := length_skipWs cs
  rw [parseEntries]
  refine (sound_parseString _).bind fun key hkey => ?_
  have hcolon := length_skipWs key.2
  refine (sound_expect _ _).bind fun rest hrest => ?_
  have hkey' : key.2.length < (skipWs cs).length := hkey
  refine (ih.value rest (by omega)).bind fun v hv => ?_
  have hshort : v.2.length < rest.length := hv.2
  have hlast := length_skipWs v.2
  dsimp only
  split
  · rename_i left heq
    rw [heq, List.length_cons] at hlast
    refine (ih.entries left (by omega)).bind fun r hr => ⟨?_, ?_⟩
    · intro e he
      rcases List.mem_cons.mp he with rfl | he
      · exact hv.1
      · exact hr.1 e he
    · have hr' : r.2.length < left.length := hr.2
      change r.2.length < cs.length
      omega
  · rename_i left heq
    rw [heq, List.length_cons] at hlast
    refine ⟨fun e he => List.mem_singleton.mp he ▸ hv.1, ?_⟩
    change left.length < cs.length
    omega
  · exact nofun

theorem sound_parseItems_succ (ih : Sufficient n) (h : 2 * cs.length + 1 ≤ n) :
    Sound (fun r => (∀ v ∈ r.1, v.Fits) ∧ Shorter cs r) (parseItems (n + 1) cs) := by
  rw [parseItems]
  refine (ih.value cs h).bind fun v hv => ?_
  have hshort : v.2.length < cs.length := hv.2
  have hlast := length_skipWs v.2
  dsimp only
  split
  · rename_i left heq
    rw [heq, List.length_cons] at hlast
    refine (ih.items left (by omega)).bind fun r hr => ⟨?_, ?_⟩
    · intro w hw
      rcases List.mem_cons.mp hw with rfl | hw
      · exact hv.1
      · exact hr.1 w hw
    · have hr' : r.2.length < left.length := hr.2
      change r.2.length < cs.length
      omega
  · rename_i left heq
    rw [heq, List.length_cons] at hlast
    refine ⟨fun w hw => List.mem_singleton.mp hw ▸ hv.1, ?_⟩
    change left.length < cs.length
    omega
  · exact nofun

theorem sufficient (n : ℕ) : Sufficient n := by
  induction n with
  | zero => exact ⟨fun _ h => absurd h (by omega), fun _ h => absurd h (by omega),
      fun _ h => absurd h (by omega)⟩
  | succ n ih =>
    exact ⟨fun _ h => sound_parseValue_succ ih (by omega),
      fun _ h => sound_parseEntries_succ ih (by omega),
      fun _ h => sound_parseItems_succ ih (by omega)⟩

/-- The parser never runs out of fuel, and a tree that it accepts has whole numbers of 64 bits. -/
theorem sound_parse (s : String) : Sound OValue.Fits (parse s) := by
  refine ((sufficient _).value _ (Nat.le_refl _)).bind fun r hr => ?_
  dsimp only
  split
  · exact hr.1
  · exact nofun

end Values

end PyJson
