import Mathlib.Data.List.Infix
import Mathlib.Data.String.Basic
import Mathlib.Data.Int.Notation

/-! Rust's text operations where their result reaches a stored row or a decision.
Whitespace is the Unicode White_Space property, as in str::trim. -/
namespace RustText

def isWhitespace (c : Char) : Bool :=
  let n := c.toNat
  (9 ≤ n && n ≤ 13) || n == 0x20 || n == 0x85 || n == 0xA0 || n == 0x1680 ||
    (0x2000 ≤ n && n ≤ 0x200A) || n == 0x2028 || n == 0x2029 || n == 0x202F ||
    n == 0x205F || n == 0x3000

def trimStart (cs : List Char) : List Char := cs.dropWhile isWhitespace

def trimChars (cs : List Char) : List Char := (trimStart (trimStart cs).reverse).reverse

def trim (s : String) : String := String.ofList (trimChars s.toList)

/-- Case mapping of text with a non-ASCII character comes from the Unicode tables. -/
class UnicodeCase where
  lower : String → String

@[reducible] def asciiCase : UnicodeCase := ⟨id⟩

def isAscii (s : String) : Bool := s.toList.all fun c => c.toNat < 128

/-- str::to_lowercase: ASCII text by the ASCII rule, other text by the Unicode tables. -/
def toLowercase [UnicodeCase] (s : String) : String :=
  if isAscii s then String.ofList (s.toList.map Char.toLower) else UnicodeCase.lower s

def contains (s pat : String) : Bool := s.toList.tails.any fun t => pat.toList.isPrefixOf t
def startsWith (s pat : String) : Bool := pat.toList.isPrefixOf s.toList

/-- str::strip_prefix. -/
def stripPrefix (s pat : String) : Option String :=
  if startsWith s pat then some (String.ofList (s.toList.drop pat.toList.length)) else none

/-- str::strip_suffix. -/
def stripSuffix (s pat : String) : Option String :=
  if pat.toList.isSuffixOf s.toList then
    some (String.ofList (s.toList.take (s.toList.length - pat.toList.length)))
  else none

/-- str::split_once with a character. -/
def splitOnce (s : String) (c : Char) : Option (String × String) :=
  if c ∈ s.toList then
    some (String.ofList (s.toList.takeWhile (· ≠ c)),
      String.ofList ((s.toList.dropWhile (· ≠ c)).drop 1))
  else none

def digits (cs : List Char) : Option ℕ :=
  if cs ≠ [] ∧ cs.all Char.isDigit then
    some (cs.foldl (fun n c => 10 * n + (c.toNat - 48)) 0)
  else none

/-- str::rsplit_once with a character. -/
def rsplitOnce (s : String) (c : Char) : Option (String × String) :=
  if c ∈ s.toList then
    some (String.ofList ((s.toList.reverse.dropWhile (· ≠ c)).drop 1).reverse,
      String.ofList (s.toList.reverse.takeWhile (· ≠ c)).reverse)
  else none

/-- str::parse for i64: an optional sign, then digits; none outside the range. -/
def parseI64 (s : String) : Option ℤ :=
  let value := match s.toList with
    | '-' :: cs => (digits cs).map fun n => -(n : ℤ)
    | '+' :: cs => (digits cs).map fun n => (n : ℤ)
    | cs => (digits cs).map fun n => (n : ℤ)
  value.filter fun x => -9223372036854775808 ≤ x ∧ x ≤ 9223372036854775807

theorem trimStart_idem (cs : List Char) : trimStart (trimStart cs) = trimStart cs := by
  induction cs with
  | nil => rfl
  | cons c cs ih =>
    by_cases h : isWhitespace c
    · simpa [trimStart, h] using ih
    · simp [trimStart, h]

theorem trimStart_eq_self_iff {c : Char} {cs : List Char} :
    trimStart (c :: cs) = c :: cs ↔ isWhitespace c = false := by
  constructor
  · intro h
    by_contra hw
    have hle := (List.dropWhile_suffix (l := cs) isWhitespace).length_le
    have hlen := congrArg List.length h
    simp only [trimStart, List.dropWhile_cons, Bool.not_eq_false] at hw hlen
    simp only [hw, if_true, List.length_cons] at hlen
    omega
  · intro h
    simp [trimStart, h]

def Trimmed (cs : List Char) : Prop :=
  trimStart cs = cs ∧ trimStart cs.reverse = cs.reverse

theorem trimStart_of_prefix {cs ds : List Char} (h : ds <+: cs) (hc : trimStart cs = cs) :
    trimStart ds = ds := by
  cases ds with
  | nil => rfl
  | cons d ds =>
    obtain ⟨es, rfl⟩ := h
    exact trimStart_eq_self_iff.mpr (trimStart_eq_self_iff.mp hc)

theorem trimChars_trimmed (cs : List Char) : Trimmed (trimChars cs) := by
  constructor
  · apply trimStart_of_prefix _ (trimStart_idem cs)
    rw [← List.reverse_suffix, trimChars, List.reverse_reverse]
    exact List.dropWhile_suffix _
  · rw [trimChars, List.reverse_reverse]
    exact trimStart_idem _

theorem trimChars_of_trimmed {cs : List Char} (h : Trimmed cs) : trimChars cs = cs := by
  rw [trimChars, h.1, h.2, List.reverse_reverse]

theorem trim_of_trimmed {s : String} (h : Trimmed s.toList) : trim s = s := by
  rw [trim, trimChars_of_trimmed h, String.ofList_toList]

@[simp] theorem toList_trim (s : String) : (trim s).toList = trimChars s.toList :=
  String.toList_ofList

@[simp] theorem trim_trim (s : String) : trim (trim s) = trim s :=
  trim_of_trimmed (by rw [toList_trim]; exact trimChars_trimmed _)

/-- A prefix that does not start with whitespace keeps a non-empty trimmed text trimmed. -/
theorem trimmed_append {c : Char} {cs ds : List Char} (hc : isWhitespace c = false)
    (hd : Trimmed ds) (hne : ds ≠ []) : Trimmed (c :: cs ++ ds) := by
  constructor
  · exact trimStart_eq_self_iff.mpr hc
  · obtain ⟨e, es, he⟩ := List.exists_cons_of_ne_nil (mt List.reverse_eq_nil_iff.mp hne)
    have hw := hd.2
    rw [List.reverse_append, he] at *
    exact trimStart_eq_self_iff.mpr (trimStart_eq_self_iff.mp hw)

theorem trim_append {p s : String} {c : Char} {cs : List Char} (hp : p.toList = c :: cs)
    (hc : isWhitespace c = false) (hs : trim s ≠ "") : trim (p ++ trim s) = p ++ trim s := by
  apply trim_of_trimmed
  rw [String.toList_append, hp, toList_trim]
  apply trimmed_append hc (trimChars_trimmed _)
  intro h
  apply hs
  rw [trim, h]

theorem trimStart_of_solid {cs : List Char} (h : ∀ c ∈ cs, isWhitespace c = false) :
    trimStart cs = cs := by
  cases cs with
  | nil => rfl
  | cons c cs => exact trimStart_eq_self_iff.mpr (h c List.mem_cons_self)

theorem trim_of_solid {s : String} (h : ∀ c ∈ s.toList, isWhitespace c = false) : trim s = s := by
  apply trim_of_trimmed
  constructor
  · exact trimStart_of_solid h
  · exact trimStart_of_solid fun c hc => h c (List.mem_reverse.mp hc)

-- Text is compared as a whole in proofs; only the lemmas above look inside.
attribute [irreducible] trim toLowercase

section Contains

theorem contains_iff {s pat : String} : contains s pat = true ↔ pat.toList <:+: s.toList := by
  unfold contains
  simp only [List.any_eq_true, List.mem_tails, List.isPrefixOf_iff_prefix]
  constructor
  · rintro ⟨t, hsuffix, hprefix⟩
    exact hprefix.isInfix.trans hsuffix.isInfix
  · rintro ⟨before, after, heq⟩
    refine ⟨pat.toList ++ after, ⟨before, ?_⟩, List.prefix_append _ _⟩
    rw [← heq, List.append_assoc]

theorem prefix_append_cons {c : Char} {pat cs ds : List Char} (hc : c ∉ pat) :
    pat <+: cs ++ c :: ds ↔ pat <+: cs := by
  induction cs generalizing pat with
  | nil =>
    cases pat with
    | nil => simp
    | cons p pat =>
      have hne : p ≠ c := fun h => hc (h ▸ List.mem_cons_self)
      simp [List.cons_prefix_cons, hne]
  | cons x cs ih =>
    cases pat with
    | nil => simp
    | cons p pat =>
      rw [List.cons_append, List.cons_prefix_cons, List.cons_prefix_cons,
        ih fun h => hc (List.mem_cons_of_mem p h)]

theorem infix_append_cons {c : Char} {pat cs ds : List Char} (hc : c ∉ pat) :
    pat <:+: cs ++ c :: ds ↔ pat <:+: cs ∨ pat <:+: ds := by
  induction cs with
  | nil =>
    have hprefix := @prefix_append_cons c pat [] ds hc
    rw [List.nil_append] at hprefix ⊢
    rw [List.infix_cons_iff, hprefix, List.infix_nil, List.prefix_nil]
  | cons x cs ih =>
    have hprefix := @prefix_append_cons c pat (x :: cs) ds hc
    rw [List.cons_append] at hprefix ⊢
    rw [List.infix_cons_iff, hprefix, ih, List.infix_cons_iff, or_assoc]

theorem mem_toString_int {c : Char} {n : ℤ} (h : c ∈ (toString n).toList) :
    c.isDigit = true ∨ c = '-' := by
  rw [Int.toString_eq_repr, Int.repr_eq_if] at h
  by_cases hn : 0 ≤ n
  · rw [if_pos hn, Nat.toList_repr] at h
    exact .inl (Nat.isDigit_of_mem_toDigits (by decide) (by decide) h)
  · rw [if_neg hn, String.toList_append, Nat.toList_repr] at h
    rcases List.mem_append.mp h with h | h
    · exact .inr (by simpa using h)
    · exact .inl (Nat.isDigit_of_mem_toDigits (by decide) (by decide) h)

end Contains

end RustText
