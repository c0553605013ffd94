import RevenueOps.JsonGrammar
import Mathlib.Data.List.TakeWhile

/-! The decoder reads back what the writer wrote, and the writer stays in printable ASCII. -/
namespace JsonGrammar

open JsonValue

def Printable (c : Char) : Prop := 0x20 ≤ c.toNat ∧ c.toNat ≤ 0x7E

instance (c : Char) : Decidable (Printable c) := inferInstanceAs (Decidable (_ ∧ _))

def AllPrintable (cs : List Char) : Prop := ∀ c ∈ cs, Printable c

instance (cs : List Char) : Decidable (AllPrintable cs) := List.decidableBAll Printable cs

@[simp] theorem allPrintable_nil : AllPrintable [] := by simp [AllPrintable]

@[simp] theorem allPrintable_cons {c : Char} {cs : List Char} :
    AllPrintable (c :: cs) ↔ Printable c ∧ AllPrintable cs := by simp [AllPrintable]

@[simp] theorem allPrintable_append {cs ds : List Char} :
    AllPrintable (cs ++ ds) ↔ AllPrintable cs ∧ AllPrintable ds := by
  simp [AllPrintable, or_imp, forall_and]

section Characters

variable {c : Char} {cs : List Char} {n : ℕ}

theorem hexValue_hexDigit : ∀ d < 16, hexValue (hexDigit d) = some d := by decide

theorem printable_hexDigit : ∀ d < 16, Printable (hexDigit d) := by decide

def hexUnit (n : ℕ) : List Char :=
  [hexDigit (n / 4096 % 16), hexDigit (n / 256 % 16), hexDigit (n / 16 % 16), hexDigit (n % 16)]

theorem unicodeUnit_eq (n : ℕ) : unicodeUnit n = '\\' :: 'u' :: hexUnit n := rfl

theorem readHex4_hexUnit (hn : n < 65536) : readHex4 (hexUnit n ++ cs) = some (n, cs) := by
  have hdigit (d : ℕ) : hexValue (hexDigit (d % 16)) = some (d % 16) :=
    hexValue_hexDigit _ (Nat.mod_lt _ (by omega))
  have hsum : ((n / 4096 % 16 * 16 + n / 256 % 16) * 16 + n / 16 % 16) * 16 + n % 16 = n := by
    omega
  simp only [hexUnit, List.cons_append, List.nil_append, readHex4, hdigit, Option.bind_eq_bind,
    Option.bind_some, hsum]

theorem printable_hexUnit : AllPrintable (hexUnit n) := by
  have hdigit (d : ℕ) : Printable (hexDigit (d % 16)) :=
    printable_hexDigit _ (Nat.mod_lt _ (by omega))
  simp [hexUnit, hdigit]

theorem charOf_toNat (c : Char) : charOf c.toNat = some c := by
  have hv : c.toNat.isValidChar := c.valid
  rw [charOf, if_pos hv, Char.ofNat_toNat]

theorem toNat_valid (c : Char) : c.toNat < 55296 ∨ 57343 < c.toNat ∧ c.toNat < 1114112 := c.valid

theorem not_highSurrogate (c : Char) : isHighSurrogate c.toNat = false := by
  have hv := toNat_valid c
  simp only [isHighSurrogate, Bool.and_eq_false_iff, decide_eq_false_iff_not]
  omega

theorem readUnicode_unit (hc : c.toNat < 65536) :
    readUnicode (hexUnit c.toNat ++ cs) = some (c, cs) := by
  rw [readUnicode, readHex4_hexUnit hc]
  simp [not_highSurrogate, charOf_toNat]

/-- The two units of a code point above the BMP are a surrogate pair that stands for it. -/
theorem pair_units {hi lo : ℕ} (hn : 65536 ≤ n ∧ n < 1114112)
    (hhi : hi = 0xD800 + (n - 0x10000) / 1024) (hlo : lo = 0xDC00 + (n - 0x10000) % 1024) :
    (hi < 65536 ∧ lo < 65536) ∧ (isHighSurrogate hi = true ∧ isLowSurrogate lo = true) ∧
      surrogatePair hi lo = n := by
  have hrange : (55296 ≤ hi ∧ hi ≤ 56319) ∧ (56320 ≤ lo ∧ lo ≤ 57343) := by omega
  have hvalue : 65536 + (hi - 55296) * 1024 + (lo - 56320) = n := by omega
  refine ⟨by omega, ?_, hvalue⟩
  simp only [isHighSurrogate, isLowSurrogate, Bool.and_eq_true, decide_eq_true_eq]
  exact hrange

theorem readUnicode_pair {hi lo : ℕ} (hc : 65536 ≤ c.toNat)
    (hhi : hi = 0xD800 + (c.toNat - 0x10000) / 1024)
    (hlo : lo = 0xDC00 + (c.toNat - 0x10000) % 1024) :
    readUnicode (hexUnit hi ++ (unicodeUnit lo ++ cs)) = some (c, cs) := by
  have hvalid : c.toNat < 1114112 := by
    have hv := toNat_valid c
    omega
  obtain ⟨⟨hhi, hlo⟩, ⟨hhigh, hlow⟩, hpair⟩ := pair_units ⟨hc, hvalid⟩ hhi hlo
  rw [readUnicode, readHex4_hexUnit hhi, unicodeUnit_eq]
  simp only [Option.bind_eq_bind, Option.bind_some, hhigh, if_true, List.cons_append, readLow]
  rw [readHex4_hexUnit hlo]
  simp [hlow, hpair, charOf_toNat]

/-- How a character is written: as an escape that the decoder reads back, or as itself. -/
inductive Written (c : Char) : List Char → Prop where
  | escape {esc : List Char} (reads : ∀ cs, readEscape (esc ++ cs) = some (c, cs))
      (printable : AllPrintable esc) : Written c ('\\' :: esc)
  | plain (quote : c ≠ '"') (backslash : c ≠ '\\') (printable : Printable c) : Written c [c]

theorem readEscape_short {e : Char} (he : e ≠ 'u') (h : shortEscape e = some c) (cs : List Char) :
    readEscape ([e] ++ cs) = some (c, cs) := by
  simp [readEscape, he, h]

theorem readEscape_u (cs : List Char) : readEscape ('u' :: cs) = readUnicode cs := by
  simp [readEscape]

theorem written_unicodeEscape (c : Char) : Written c (writeUnicodeEscape c) := by
  unfold writeUnicodeEscape
  by_cases hc : c.toNat > 0xFFFF
  · simp only [hc, if_true, unicodeUnit_eq, List.cons_append]
    refine .escape ?_ ?_
    · intro cs
      rw [List.cons_append, readEscape_u, List.append_assoc]
      exact readUnicode_pair hc rfl rfl
    · have hu : Printable 'u' := by decide
      have hb : Printable '\\' := by decide
      simp [hu, hb, printable_hexUnit]
  · simp only [hc, if_false, unicodeUnit_eq]
    refine .escape ?_ ?_
    · intro cs
      rw [List.cons_append, readEscape_u]
      exact readUnicode_unit (by omega)
    · have hu : Printable 'u' := by decide
      simp [hu, printable_hexUnit]

theorem written_writeChar (c : Char) : Written c (writeChar c) := by
  have hshort {e : Char} (he : e ≠ 'u') (h : shortEscape e = some c) (hp : Printable e) :
      Written c ['\\', e] :=
    .escape (readEscape_short he h) (by simpa using hp)
  have hcode {k : ℕ} (hk : c.toNat = k) : c = Char.ofNat k := by rw [← hk, Char.ofNat_toNat]
  unfold writeChar
  split
  case isTrue h => exact hshort (by decide) (by rw [h]; rfl) (by decide)
  split
  case isTrue h => exact hshort (by decide) (by rw [h]; rfl) (by decide)
  split
  case isTrue h => exact hshort (by decide) (by rw [h]; rfl) (by decide)
  split
  case isTrue h => exact hshort (by decide) (by rw [h]; rfl) (by decide)
  split
  case isTrue h => exact hshort (by decide) (by rw [h]; rfl) (by decide)
  split
  case isTrue h => exact hshort (by decide) (by rw [hcode h]; rfl) (by decide)
  split
  case isTrue h => exact hshort (by decide) (by rw [hcode h]; rfl) (by decide)
  split
  case isTrue h => exact written_unicodeEscape c
  case isFalse hquote hbackslash _ _ _ _ _ h =>
    exact .plain hquote hbackslash (by unfold Printable; omega)

end Characters

section Strings

variable {c : Char} {cs ds w : List Char} {n : ℕ}

theorem readChars_quote (n : ℕ) (cs : List Char) :
    readChars (n + 1) ('"' :: cs) = some ([], cs) := by
  simp [readChars]

theorem readChars_written (h : Written c w) (n : ℕ) (cs : List Char) :
    readChars (n + 1) (w ++ cs) = (readChars n cs).map (Prod.map (c :: ·) id) := by
  cases h with
  | escape reads _ =>
    have hb : '\\' ≠ '"' := by decide
    simp only [List.cons_append, readChars, hb, if_false, if_true, reads]
    cases h : readChars n cs <;> simp [h, Prod.map]
  | plain quote backslash printable =>
    have hlow : ¬c.toNat < 0x20 := by
      have hp := printable.1
      omega
    simp only [List.cons_append, List.nil_append, readChars, quote, backslash, hlow, if_false]
    cases readChars n cs <;> simp [Prod.map]

theorem written_length_pos (h : Written c w) : 0 < w.length := by cases h <;> simp

theorem length_le_flatMap (ds : List Char) : ds.length ≤ (ds.flatMap writeChar).length := by
  induction ds with
  | nil => simp
  | cons d ds ih =>
    have hd := written_length_pos (written_writeChar d)
    simp only [List.flatMap_cons, List.length_append, List.length_cons]
    omega

/-- Induction on the string's characters: each is read back by one step. -/
theorem readChars_flatMap (cs : List Char) (hn : ds.length < n) :
    readChars n (ds.flatMap writeChar ++ '"' :: cs) = some (ds, cs) := by
  induction ds generalizing n with
  | nil =>
    obtain ⟨n, rfl⟩ := Nat.exists_eq_add_of_lt hn
    simpa using readChars_quote _ cs
  | cons d ds ih =>
    cases n with
    | zero => simp at hn
    | succ n =>
      rw [List.flatMap_cons, List.append_assoc, readChars_written (written_writeChar d),
        ih (by simpa using hn)]
      simp

theorem writeString_toList (s : String) (cs : List Char) :
    (writeString s).toList ++ cs = '"' :: (s.toList.flatMap writeChar ++ '"' :: cs) := by
  simp [writeString]

theorem readString_writeString (s : String) (cs : List Char) :
    readString ((writeString s).toList ++ cs) = some (s, cs) := by
  have hlen := length_le_flatMap s.toList
  rw [writeString_toList, readString, readChars_flatMap]
  · simp
  · simp only [List.length_append, List.length_cons]
    omega

theorem printable_writeString (s : String) : AllPrintable (writeString s).toList := by
  have hchar (c : Char) : AllPrintable (writeChar c) := by
    have hb : Printable '\\' := by decide
    generalize hw : writeChar c = w
    have hwritten := hw ▸ written_writeChar c
    cases hwritten with
    | escape _ printable => simpa using ⟨hb, printable⟩
    | plain _ _ printable => simpa using printable
  have hq : Printable '"' := by decide
  have hbody : AllPrintable (s.toList.flatMap writeChar) := by
    intro d hd
    obtain ⟨c, -, hc⟩ := List.mem_flatMap.mp hd
    exact hchar c d hc
  simp [writeString, hq, hbody]

end Strings

def Ends : List Char → Prop
  | [] => True
  | c :: _ => c = ',' ∨ c = ']' ∨ c = '\x7d'

theorem ends_nil : Ends [] := trivial
theorem ends_comma (cs : List Char) : Ends (',' :: cs) := Or.inl rfl
theorem ends_bracket (cs : List Char) : Ends (']' :: cs) := Or.inr (Or.inl rfl)
theorem ends_brace (cs : List Char) : Ends ('\x7d' :: cs) := Or.inr (Or.inr rfl)

section Numbers

variable {rest : List Char} {n : ℕ}

theorem isDigit_toDigits {c : Char} (h : c ∈ Nat.toDigits 10 n) : c.isDigit = true :=
  Nat.isDigit_of_mem_toDigits (by decide) (by decide) h

theorem readDigits_toDigits (hr : Ends rest) :
    readDigits (Nat.toDigits 10 n ++ rest) = some (Nat.toDigits 10 n, rest) := by
  have hstop : rest.takeWhile Char.isDigit = [] ∧ rest.dropWhile Char.isDigit = rest := by
    cases rest with
    | nil => simp
    | cons c cs => rcases hr with rfl | rfl | rfl <;> simp [Char.isDigit]
  have hne : (Nat.toDigits 10 n).isEmpty = false := by simp [Nat.toDigits_ne_nil]
  have htake : (Nat.toDigits 10 n ++ rest).takeWhile Char.isDigit = Nat.toDigits 10 n := by
    rw [List.takeWhile_append_of_pos fun c => isDigit_toDigits, hstop.1, List.append_nil]
  have hdrop : (Nat.toDigits 10 n ++ rest).dropWhile Char.isDigit = rest := by
    rw [List.dropWhile_append_of_pos fun c => isDigit_toDigits, hstop.2]
  simp only [readDigits, htake, hdrop, hne, Bool.false_eq_true, if_false]

theorem toDigits_head (n : ℕ) (hn : 0 < n) : (Nat.toDigits 10 n).head? ≠ some '0' := by
  induction n using Nat.strong_induction_on with
  | _ n ih =>
    rw [Nat.toDigits_eq_if (by decide)]
    split
    · simp only [List.head?_cons, ne_eq, Option.some.injEq, Nat.digitChar_eq_zero]
      omega
    · rw [List.head?_append_of_ne_nil _ Nat.toDigits_ne_nil]
      exact ih (n / 10) (by omega) (by omega)

theorem readWhole_toDigits (hr : Ends rest) :
    readWhole (Nat.toDigits 10 n ++ rest) = some (Nat.toDigits 10 n, rest) := by
  have hlead : ¬((Nat.toDigits 10 n).head? = some '0' ∧ 1 < (Nat.toDigits 10 n).length) := by
    rintro ⟨hzero, hlen⟩
    by_cases hn : 0 < n
    · exact toDigits_head n hn hzero
    · obtain rfl : n = 0 := by omega
      simp at hlen
  simp [readWhole, readDigits_toDigits hr, hlead]

theorem readFraction_ends (hr : Ends rest) : readFraction rest = some (none, rest) := by
  cases rest with
  | nil => rfl
  | cons c cs => rcases hr with rfl | rfl | rfl <;> rfl

theorem readExponent_ends (hr : Ends rest) : readExponent rest = some (none, rest) := by
  cases rest with
  | nil => rfl
  | cons c cs => rcases hr with rfl | rfl | rfl <;> rfl

theorem readUnsigned_toDigits (negative : Bool) (hn : negative = true → n ≠ 0) (hr : Ends rest) :
    readUnsigned negative (Nat.toDigits 10 n ++ rest) =
      some (.int (if negative then -(n : ℤ) else n), rest) := by
  have hvalue : Nat.ofDigitChars 10 (Nat.toDigits 10 n) 0 = n :=
    Nat.ofDigitChars_toDigits (by decide) (by decide)
  simp only [readUnsigned, readWhole_toDigits hr, readFraction_ends hr, readExponent_ends hr,
    numberValue, hvalue, Option.bind_eq_bind, Option.bind_some]
  rw [if_pos ⟨trivial, trivial, fun h => hn h.1 h.2⟩]

theorem intText (i : ℤ) : (toString i).toList =
    if i < 0 then '-' :: Nat.toDigits 10 i.natAbs else Nat.toDigits 10 i.natAbs := by
  cases i with
  | ofNat m => simp [toString, Int.repr]
  | negSucc m => simp [toString, Int.repr, Int.negSucc_lt_zero]

theorem toDigits_cons (n : ℕ) : ∃ c cs, Nat.toDigits 10 n = c :: cs ∧ c.isDigit = true := by
  cases h : Nat.toDigits 10 n with
  | nil => exact absurd h Nat.toDigits_ne_nil
  | cons c cs => exact ⟨c, cs, rfl, isDigit_toDigits (h ▸ List.mem_cons_self)⟩

theorem readNumber_digit {c : Char} (hc : c.isDigit = true) (cs : List Char) :
    readNumber (c :: cs) = readUnsigned false (c :: cs) := by
  have hminus : c ≠ '-' := by
    rintro rfl
    simp [Char.isDigit] at hc
  unfold readNumber
  split
  · rename_i h
    exact absurd (List.cons.inj h).1 hminus
  · rfl

theorem readNumber_int (i : ℤ) (hr : Ends rest) :
    readNumber ((toString i).toList ++ rest) = some (.int i, rest) := by
  rw [intText]
  by_cases hi : i < 0
  · have hread := readUnsigned_toDigits (n := i.natAbs) true (by omega) hr
    simp only [hi, if_true, List.cons_append, readNumber, hread]
    congr 3
    omega
  · have hread := readUnsigned_toDigits (n := i.natAbs) false (by simp) hr
    obtain ⟨c, cs, hcs, hc⟩ := toDigits_cons i.natAbs
    simp only [hi, if_false]
    rw [hcs, List.cons_append, readNumber_digit hc, ← List.cons_append, ← hcs, hread]
    simp only [Bool.false_eq_true, if_false]
    congr 3
    omega

theorem headOf_digit {c : Char} (hc : c.isDigit = true) : headOf c = .number ∧ isWs c = false := by
  have hne {d : Char} (hd : d.isDigit = false) : c ≠ d := by
    rintro rfl
    simp [hc] at hd
  simp [headOf, isWs, hne (d := '\x7b') rfl, hne (d := '[') rfl, hne (d := '"') rfl,
    hne (d := 't') rfl, hne (d := 'f') rfl, hne (d := 'n') rfl, hne (d := ' ') rfl,
    hne (d := '\t') rfl, hne (d := '\n') rfl, hne (d := '\r') rfl]

theorem printable_digit {c : Char} (hc : c.isDigit = true) : Printable c := by
  simp only [Char.isDigit, ge_iff_le, Bool.and_eq_true, decide_eq_true_eq, UInt32.le_iff_toNat_le]
    at hc
  unfold Printable Char.toNat
  exact ⟨le_trans (by decide) hc.1, le_trans hc.2 (by decide)⟩

end Numbers

section Values

variable {cs rest : List Char} {n : ℕ} {text : String} {texts : List String}

theorem skipWs_nil : skipWs [] = [] := rfl

theorem skipWs_of_not_ws {c : Char} (hc : isWs c = false) (cs : List Char) :
    skipWs (c :: cs) = c :: cs := by simp [skipWs, hc]

theorem skipWs_space (cs : List Char) : skipWs (' ' :: cs) = skipWs cs := by simp [skipWs, isWs]

theorem readValue_space (n : ℕ) (cs : List Char) : readValue n (' ' :: cs) = readValue n cs := by
  cases n with
  | zero => rfl
  | succ n => simp only [readValue, skipWs_space]

theorem readItems_space (n : ℕ) (cs : List Char) : readItems n (' ' :: cs) = readItems n cs := by
  cases n with
  | zero => rfl
  | succ n => simp only [readItems, readValue_space]

theorem readMembers_space (n : ℕ) (cs : List Char) :
    readMembers n (' ' :: cs) = readMembers n cs := by
  cases n with
  | zero => rfl
  | succ n => simp only [readMembers, skipWs_space]

def joined (texts : List String) : List Char := (", ".intercalate texts).toList

@[simp] theorem joined_nil : joined [] = [] := by simp [joined]

@[simp] theorem joined_singleton (x : String) : joined [x] = x.toList := by simp [joined]

@[simp] theorem joined_cons_cons (x y : String) (ys : List String) :
    joined (x :: y :: ys) = x.toList ++ ',' :: ' ' :: joined (y :: ys) := by
  simp [joined, String.toList_intercalate]

theorem writeValue_arr {items : List Json} (h : writeValue (.arr items) = .ok text) :
    ∃ texts, writeItems items = .ok texts ∧ text.toList = '[' :: (joined texts ++ [']']) := by
  rw [writeValue] at h
  cases hw : writeItems items with
  | error x => simp [hw, Except.map] at h
  | ok texts =>
    obtain rfl : "[" ++ ", ".intercalate texts ++ "]" = text := by simpa [hw, Except.map] using h
    exact ⟨texts, rfl, by simp [joined]⟩

theorem writeValue_obj {members : List (String × Json)}
    (h : writeValue (.obj members) = .ok text) :
    ∃ texts, writeMembers members = .ok texts ∧
      text.toList = '\x7b' :: (joined texts ++ ['\x7d']) := by
  rw [writeValue] at h
  cases hw : writeMembers members with
  | error x => simp [hw, Except.map] at h
  | ok texts =>
    obtain rfl : "\x7b" ++ ", ".intercalate texts ++ "\x7d" = text := by
      simpa [hw, Except.map] using h
    exact ⟨texts, rfl, by simp [joined]⟩

theorem writeItems_cons {j : Json} {js : List Json} (h : writeItems (j :: js) = .ok texts) :
    ∃ x xs, writeValue j = .ok x ∧ writeItems js = .ok xs ∧ texts = x :: xs := by
  rw [writeItems] at h
  cases hx : writeValue j with
  | error e => simp [hx, bind, Except.bind] at h
  | ok x =>
    cases hxs : writeItems js with
    | error e => simp [hx, hxs, bind, Except.bind] at h
    | ok xs =>
      simp only [hx, hxs, bind, Except.bind, pure, Except.pure, Except.ok.injEq] at h
      exact ⟨x, xs, rfl, rfl, h.symm⟩

theorem writeMembers_cons {k : String} {j : Json} {ms : List (String × Json)}
    (h : writeMembers ((k, j) :: ms) = .ok texts) :
    ∃ x xs, writeValue j = .ok x ∧ writeMembers ms = .ok xs ∧
      texts = (writeString k ++ ": " ++ x) :: xs := by
  rw [writeMembers] at h
  cases hx : writeValue j with
  | error e => simp [hx, bind, Except.bind] at h
  | ok x =>
    cases hxs : writeMembers ms with
    | error e => simp [hx, hxs, bind, Except.bind] at h
    | ok xs =>
      simp only [hx, hxs, bind, Except.bind, pure, Except.pure, Except.ok.injEq] at h
      exact ⟨x, xs, rfl, rfl, h.symm⟩

theorem writeString_cons (s : String) : ∃ cs, (writeString s).toList = '"' :: cs :=
  ⟨s.toList.flatMap writeChar ++ ['"'], by simpa using writeString_toList s []⟩

/-- A value's text opens with a character of its own: no whitespace and no closing bracket. -/
theorem value_head {j : Json} (h : writeValue j = .ok text) :
    ∃ c cs, text.toList = c :: cs ∧ isWs c = false ∧ c ≠ ']' := by
  have lit {s : String} (hs : text = s) {c : Char} {cs : List Char} (hc : s.toList = c :: cs)
      (hw : isWs c = false ∧ c ≠ ']') :
      ∃ c cs, text.toList = c :: cs ∧ isWs c = false ∧ c ≠ ']' := ⟨c, cs, hs ▸ hc, hw⟩
  cases j with
  | null => exact lit (Except.ok.inj h).symm rfl (by decide)
  | bool b =>
    cases b
    · exact lit (Except.ok.inj h).symm rfl (by decide)
    · exact lit (Except.ok.inj h).symm rfl (by decide)
  | float x => simp [writeValue] at h
  | str s =>
    obtain ⟨cs, hcs⟩ := writeString_cons s
    exact lit (Except.ok.inj h).symm hcs (by decide)
  | arr items =>
    obtain ⟨texts, -, ht⟩ := writeValue_arr h
    exact ⟨_, _, ht, by decide⟩
  | obj members =>
    obtain ⟨texts, -, ht⟩ := writeValue_obj h
    exact ⟨_, _, ht, by decide⟩
  | int i =>
    have ht : text.toList = (toString i).toList := by rw [← Except.ok.inj h]
    rw [intText] at ht
    by_cases hi : i < 0
    · exact ⟨_, _, by simpa [hi] using ht, by decide⟩
    · obtain ⟨c, cs, hcs, hc⟩ := toDigits_cons i.natAbs
      have hclose : c ≠ ']' := by
        rintro rfl
        simp [Char.isDigit] at hc
      exact ⟨c, cs, by simpa [hi, hcs] using ht, (headOf_digit hc).2, hclose⟩

theorem joined_append_head {x : String} {c : Char} {l : List Char} (hx : x.toList = c :: l)
    (xs : List String) : ∃ ds, joined (x :: xs) = c :: ds := by
  cases xs with
  | nil => exact ⟨l, by simpa using hx⟩
  | cons y ys => exact ⟨l ++ ',' :: ' ' :: joined (y :: ys), by simp [hx]⟩

theorem readLit_append (lit : List Char) (j : Json) (cs : List Char) :
    readLit lit j (lit ++ cs) = some (j, cs) := by
  simp [readLit, List.isPrefixOf_iff_prefix]

theorem readValue_int {i : ℤ} (hr : Ends rest) :
    readValue (n + 1) ((toString i).toList ++ rest) = some (.int i, rest) := by
  have hread := readNumber_int i hr
  have hhead : ∃ c cs, (toString i).toList = c :: cs ∧ headOf c = .number ∧ isWs c = false := by
    rw [intText]
    by_cases hi : i < 0
    · exact ⟨'-', Nat.toDigits 10 i.natAbs, by simp [hi], rfl, rfl⟩
    · obtain ⟨c, cs, hcs, hc⟩ := toDigits_cons i.natAbs
      exact ⟨c, cs, by simp [hi, hcs], headOf_digit hc⟩
  obtain ⟨c, cs, hcs, hnum, hws⟩ := hhead
  rw [hcs, List.cons_append] at hread ⊢
  simp only [readValue, skipWs_of_not_ws hws, hnum, hread]

theorem readValue_str (s : String) :
    readValue (n + 1) ((writeString s).toList ++ rest) = some (.str s, rest) := by
  have hread := readString_writeString s rest
  obtain ⟨cs, hcs⟩ := writeString_cons s
  have hhead : headOf '"' = .quote := rfl
  rw [hcs, List.cons_append] at hread ⊢
  simp only [readValue, skipWs_of_not_ws (by decide : isWs '"' = false), hhead, hread]
  rfl

theorem listEnd_comma {α : Type} (close : Char) (x : α) (more : Reader (List α)) (cs : List Char) :
    listEnd close x more (',' :: cs) = (more cs).map (Prod.map (x :: ·) id) := by
  simp [listEnd, skipWs_of_not_ws (by decide : isWs ',' = false)]

theorem listEnd_close {α : Type} {close : Char} (hc : isWs close = false ∧ close ≠ ',') (x : α)
    (more : Reader (List α)) (cs : List Char) :
    listEnd close x more (close :: cs) = some ([x], cs) := by
  simp [listEnd, skipWs_of_not_ws hc.1, hc.2]

theorem readValue_arr {items : List Json} {ds : List Char} (hd : (skipWs ds).head? ≠ some ']')
    (h : readItems n ds = some (items, rest)) :
    readValue (n + 1) ('[' :: ds) = some (.arr items, rest) := by
  have hhead : headOf '[' = .bracket := rfl
  simp only [readValue, skipWs_of_not_ws (by decide : isWs '[' = false), hhead, hd, if_false, h]
  rfl

theorem readValue_obj {members : List (String × Json)} {ds : List Char}
    (hd : (skipWs ds).head? ≠ some '\x7d') (h : readMembers n ds = some (members, rest)) :
    readValue (n + 1) ('\x7b' :: ds) = some (.obj members, rest) := by
  have hhead : headOf '\x7b' = .brace := rfl
  simp only [readValue, skipWs_of_not_ws (by decide : isWs '\x7b' = false), hhead, hd, if_false, h]
  rfl

theorem readMembers_member {k : String} {x : String} {j : Json} {ds : List Char}
    (h : readValue n (x.toList ++ ds) = some (j, ds)) :
    readMembers (n + 1) ((writeString k ++ ": " ++ x).toList ++ ds) =
      listEnd '\x7d' (k, j) (readMembers n) ds := by
  have hk := readString_writeString k (':' :: ' ' :: (x.toList ++ ds))
  have hskip : skipWs ((writeString k).toList ++ ':' :: ' ' :: (x.toList ++ ds)) =
      (writeString k).toList ++ ':' :: ' ' :: (x.toList ++ ds) := by
    obtain ⟨cs, hcs⟩ := writeString_cons k
    rw [hcs]
    exact skipWs_of_not_ws (by decide) _
  have htext : (writeString k ++ ": " ++ x).toList ++ ds =
      (writeString k).toList ++ ':' :: ' ' :: (x.toList ++ ds) := by simp
  rw [htext, readMembers, hskip, hk]
  simp only [Option.bind_eq_bind, Option.bind_some, skipWs_of_not_ws (by decide : isWs ':' = false),
    expect, if_true, readValue_space, h]

mutual

/-- The decoder reads a written value back, whatever ends the text behind it. -/
theorem readValue_writeValue : ∀ (j : Json) {text : String} {n : ℕ} {rest : List Char},
    writeValue j = .ok text → text.toList.length < n → Ends rest →
      readValue n (text.toList ++ rest) = some (j, rest)
  | _, _, 0, _, _, hn, _ => absurd hn (Nat.not_lt_zero _)
  | .null, _, n + 1, rest, h, _, _ => by
    rw [← Except.ok.inj h]
    exact readLit_append "null".toList _ rest
  | .bool true, _, n + 1, rest, h, _, _ => by
    rw [← Except.ok.inj h]
    exact readLit_append "true".toList _ rest
  | .bool false, _, n + 1, rest, h, _, _ => by
    rw [← Except.ok.inj h]
    exact readLit_append "false".toList _ rest
  | .int i, _, n + 1, rest, h, _, hr => by
    rw [← Except.ok.inj h]
    exact readValue_int hr
  | .float x, _, n + 1, rest, h, _, _ => by simp [writeValue] at h
  | .str s, _, n + 1, rest, h, _, _ => by
    rw [← Except.ok.inj h]
    exact readValue_str s
  | .arr [], _, n + 1, rest, h, _, _ => by
    rw [← Except.ok.inj h]
    rfl
  | .arr (j :: js), _, n + 1, rest, h, hn, _ => by
    obtain ⟨texts, hw, ht⟩ := writeValue_arr h
    rw [ht] at hn ⊢
    rw [List.cons_append, List.append_assoc]
    refine readValue_arr ?_ (readItems_writeItems (j :: js) (by simp) hw ?_)
    · obtain ⟨x, xs, hx, -, rfl⟩ := writeItems_cons hw
      obtain ⟨c, cs, hc, hws, hclose⟩ := value_head hx
      obtain ⟨ds, hds⟩ := joined_append_head hc xs
      rw [hds, List.cons_append, skipWs_of_not_ws hws]
      simpa using hclose
    · simp only [List.length_cons, List.length_append] at hn
      omega
  | .obj [], _, n + 1, rest, h, _, _ => by
    rw [← Except.ok.inj h]
    rfl
  | .obj ((k, j) :: ms), _, n + 1, rest, h, hn, _ => by
    obtain ⟨texts, hw, ht⟩ := writeValue_obj h
    rw [ht] at hn ⊢
    rw [List.cons_append, List.append_assoc]
    refine readValue_obj ?_ (readMembers_writeMembers ((k, j) :: ms) (by simp) hw ?_)
    · obtain ⟨x, xs, -, -, rfl⟩ := writeMembers_cons hw
      obtain ⟨cs, hcs⟩ := writeString_cons k
      obtain ⟨ds, hds⟩ := joined_append_head (x := writeString k ++ ": " ++ x) (c := '"')
        (l := cs ++ ':' :: ' ' :: x.toList) (by simp [hcs]) xs
      rw [hds, List.cons_append, skipWs_of_not_ws (by decide)]
      simp
    · simp only [List.length_cons, List.length_append] at hn
      omega

theorem readItems_writeItems : ∀ (js : List Json) {texts : List String} {n : ℕ} {r : List Char},
    js ≠ [] → writeItems js = .ok texts → (joined texts).length + 1 < n →
      readItems n (joined texts ++ ']' :: r) = some (js, r)
  | [], _, _, _, hne, _, _ => absurd rfl hne
  | _ :: _, _, 0, _, _, _, hn => absurd hn (Nat.not_lt_zero _)
  | [j], _, n + 1, rest, _, h, hn => by
    obtain ⟨x, xs, hx, hxs, rfl⟩ := writeItems_cons h
    obtain rfl : [] = xs := Except.ok.inj hxs
    have hread := readValue_writeValue j (n := n) hx (by simp at hn; omega) (ends_bracket rest)
    simp only [joined_singleton, readItems, hread, Option.bind_eq_bind, Option.bind_some]
    exact listEnd_close (by decide) j _ rest
  | j :: j' :: js, _, n + 1, rest, _, h, hn => by
    obtain ⟨x, xs, hx, hxs, rfl⟩ := writeItems_cons h
    obtain ⟨y, ys, hy, hys, rfl⟩ := writeItems_cons hxs
    have hlen : x.toList.length < n ∧ (joined (y :: ys)).length + 1 < n := by
      simp only [joined_cons_cons, List.length_append, List.length_cons] at hn
      omega
    have htail := readItems_writeItems (j' :: js) (r := rest) (by simp) hxs hlen.2
    have hread := readValue_writeValue j hx hlen.1
      (ends_comma (' ' :: (joined (y :: ys) ++ ']' :: rest)))
    simp only [joined_cons_cons, List.append_assoc, List.cons_append, readItems, hread,
      Option.bind_eq_bind, Option.bind_some, listEnd_comma, readItems_space, htail]
    rfl

theorem readMembers_writeMembers : ∀ (ms : List (String × Json)) {texts : List String} {n : ℕ}
    {r : List Char}, ms ≠ [] → writeMembers ms = .ok texts → (joined texts).length + 1 < n →
      readMembers n (joined texts ++ '\x7d' :: r) = some (ms, r)
  | [], _, _, _, hne, _, _ => absurd rfl hne
  | _ :: _, _, 0, _, _, _, hn => absurd hn (Nat.not_lt_zero _)
  | [(k, j)], _, n + 1, rest, _, h, hn => by
    obtain ⟨x, xs, hx, hxs, rfl⟩ := writeMembers_cons h
    obtain rfl : [] = xs := Except.ok.inj hxs
    have hread := readValue_writeValue j (n := n) hx (by simp at hn; omega) (ends_brace rest)
    rw [joined_singleton, readMembers_member hread]
    exact listEnd_close (by decide) (k, j) _ rest
  | (k, j) :: (k', j') :: ms, _, n + 1, rest, _, h, hn => by
    obtain ⟨x, xs, hx, hxs, rfl⟩ := writeMembers_cons h
    obtain ⟨y, ys, hy, hys, rfl⟩ := writeMembers_cons hxs
    have hlen : x.toList.length < n ∧
        (joined ((writeString k' ++ ": " ++ y) :: ys)).length + 1 < n := by
      simp only [joined_cons_cons, List.length_append, List.length_cons, String.toList_append] at hn
      omega
    have htail := readMembers_writeMembers ((k', j') :: ms) (r := rest) (by simp) hxs hlen.2
    have hread := readValue_writeValue j hx hlen.1
      (ends_comma (' ' :: (joined ((writeString k' ++ ": " ++ y) :: ys) ++ '\x7d' :: rest)))
    rw [joined_cons_cons, List.append_assoc, List.cons_append, List.cons_append,
      readMembers_member hread, listEnd_comma, readMembers_space, htail]
    rfl

end

theorem printable_joined (h : ∀ x ∈ texts, AllPrintable x.toList) :
    AllPrintable (joined texts) := by
  have hsep : Printable ',' ∧ Printable ' ' := by decide
  induction texts with
  | nil => simp
  | cons x xs ih =>
    have hx := h x (by simp)
    have hxs := ih fun y hy => h y (by simp [hy])
    cases xs with
    | nil => simpa using hx
    | cons y ys => simpa [hsep] using ⟨hx, hxs⟩

mutual

theorem printable_writeValue : ∀ (j : Json) {text : String}, writeValue j = .ok text →
    AllPrintable text.toList
  | .null, _, h => by
    rw [← Except.ok.inj h]
    decide
  | .bool true, _, h => by
    rw [← Except.ok.inj h]
    decide
  | .bool false, _, h => by
    rw [← Except.ok.inj h]
    decide
  | .int i, _, h => by
    have hdigits : AllPrintable (Nat.toDigits 10 i.natAbs) :=
      fun c hc => printable_digit (isDigit_toDigits hc)
    have hminus : Printable '-' := by decide
    rw [← Except.ok.inj h, intText]
    split <;> simp [hdigits, hminus]
  | .float x, _, h => by simp [writeValue] at h
  | .str s, _, h => by
    rw [← Except.ok.inj h]
    exact printable_writeString s
  | .arr items, _, h => by
    obtain ⟨texts, hw, ht⟩ := writeValue_arr h
    have hends : Printable '[' ∧ Printable ']' := by decide
    have hbody := printable_joined (printable_writeItems items hw)
    simp [ht, hends, hbody]
  | .obj members, _, h => by
    obtain ⟨texts, hw, ht⟩ := writeValue_obj h
    have hends : Printable '\x7b' ∧ Printable '\x7d' := by decide
    have hbody := printable_joined (printable_writeMembers members hw)
    simp [ht, hends, hbody]

theorem printable_writeItems : ∀ (js : List Json) {texts : List String},
    writeItems js = .ok texts → ∀ x ∈ texts, AllPrintable x.toList
  | [], _, h, x, hx => by
    rw [← Except.ok.inj h] at hx
    simp at hx
  | j :: js, _, h, x, hx => by
    obtain ⟨y, ys, hy, hys, rfl⟩ := writeItems_cons h
    rcases List.mem_cons.mp hx with rfl | hx
    · exact printable_writeValue j hy
    · exact printable_writeItems js hys x hx

theorem printable_writeMembers : ∀ (ms : List (String × Json)) {texts : List String},
    writeMembers ms = .ok texts → ∀ x ∈ texts, AllPrintable x.toList
  | [], _, h, x, hx => by
    rw [← Except.ok.inj h] at hx
    simp at hx
  | (k, j) :: ms, _, h, x, hx => by
    obtain ⟨y, ys, hy, hys, rfl⟩ := writeMembers_cons h
    rcases List.mem_cons.mp hx with rfl | hx
    · have hsep : Printable ':' ∧ Printable ' ' := by decide
      simp [printable_writeString, hsep, printable_writeValue j hy]
    · exact printable_writeMembers ms hys x hx

end

theorem decode_writeValue {j : Json} {text : String} (h : writeValue j = .ok text) :
    decode text = some j := by
  have hread := readValue_writeValue j h (Nat.lt_succ_self _) ends_nil
  rw [List.append_nil] at hread
  simp only [decode, hread, Option.bind_eq_bind, Option.bind_some, skipWs_nil, List.isEmpty_nil,
    if_true]

end Values

end JsonGrammar
