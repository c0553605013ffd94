import RevenueOps.JsonValue
import Mathlib.Data.List.Basic
import Mathlib.Tactic.SplitIfs

/-! The canonical JSON text that idempotency keys are computed from: keys in order,
no spaces, and integers as the only numbers. -/
namespace CanonicalJson

open JsonValue

structure CanonicalError where
  path : String
  deriving DecidableEq, Repr

def formatPath : List String → String
  | [] => "/"
  | path => String.join (path.map fun seg => "/" ++ seg)

def writeChar (c : Char) : List Char :=
  if c = '"' then ['\\', '"']
  else if c = '\\' then ['\\', '\\']
  else if c = '\n' then ['\\', 'n']
  else if c = '\t' then ['\\', 't']
  else if c = '\r' then ['\\', 'r']
  else if c.toNat = 0x08 then ['\\', 'b']
  else if c.toNat = 0x0C then ['\\', 'f']
  else if c.toNat < 0x20 then unicodeUnit c.toNat
  else [c]

def writeString (s : String) : List Char := '"' :: (s.toList.flatMap writeChar ++ ['"'])

mutual

def writeValue (path : List String) : Json → Except CanonicalError (List Char)
  | .null => .ok "null".toList
  | .bool true => .ok "true".toList
  | .bool false => .ok "false".toList
  | .int n => .ok (toString n).toList
  | .float _ => .error ⟨formatPath path⟩
  | .str s => .ok (writeString s)
  | .arr items => (writeItems path 0 items).map fun xs => '[' :: (xs ++ [']'])
  | .obj members => (writeMembers path true members).map fun xs => '\x7b' :: (xs ++ ['\x7d'])

def writeItems (path : List String) (i : ℕ) : List Json → Except CanonicalError (List Char)
  | [] => .ok []
  | j :: js => do
    let x ← writeValue (path ++ [toString i]) j
    let xs ← writeItems path (i + 1) js
    pure ((if i = 0 then [] else [',']) ++ x ++ xs)

def writeMembers (path : List String) (first : Bool) :
    List (String × Json) → Except CanonicalError (List Char)
  | [] => .ok []
  | (k, j) :: ms => do
    let x ← writeValue (path ++ [k]) j
    let xs ← writeMembers path false ms
    pure ((if first then [] else [',']) ++ writeString k ++ [':'] ++ x ++ xs)

end

def canonicalJson (j : Json) : Except CanonicalError String :=
  (writeValue [] j).map String.ofList

def hexValue (c : Char) : ℕ := if c.isDigit then c.toNat - 48 else c.toNat - 87

def readChar : List Char → Option (Char × List Char)
  | '\\' :: 'u' :: a :: b :: c :: d :: xs =>
    some (Char.ofNat (((hexValue a * 16 + hexValue b) * 16 + hexValue c) * 16 + hexValue d), xs)
  | '\\' :: 'n' :: xs => some ('\n', xs)
  | '\\' :: 't' :: xs => some ('\t', xs)
  | '\\' :: 'r' :: xs => some ('\r', xs)
  | '\\' :: 'b' :: xs => some (Char.ofNat 0x08, xs)
  | '\\' :: 'f' :: xs => some (Char.ofNat 0x0C, xs)
  | '\\' :: c :: xs => some (c, xs)
  | c :: xs => some (c, xs)
  | [] => none

theorem hexValue_hexDigit : ∀ n < 16, hexValue (hexDigit n) = n := by decide

theorem readChar_unicodeUnit {n : ℕ} (hn : n < 0x20) (xs : List Char) :
    readChar (unicodeUnit n ++ xs) = some (Char.ofNat n, xs) := by
  simp only [unicodeUnit, List.cons_append, List.nil_append, readChar]
  rw [hexValue_hexDigit _ (by omega), hexValue_hexDigit _ (by omega),
    hexValue_hexDigit _ (by omega), hexValue_hexDigit _ (by omega)]
  congr 3
  omega

theorem readChar_plain {c : Char} (hc : c ≠ '\\') (xs : List Char) :
    readChar (c :: xs) = some (c, xs) := by
  unfold readChar
  split <;> simp_all

theorem readChar_writeChar (c : Char) (xs : List Char) :
    readChar (writeChar c ++ xs) = some (c, xs) := by
  unfold writeChar
  by_cases h1 : c = '"'
  · subst h1; rfl
  by_cases h2 : c = '\\'
  · subst h2; rfl
  by_cases h3 : c = '\n'
  · subst h3; rfl
  by_cases h4 : c = '\t'
  · subst h4; rfl
  by_cases h5 : c = '\r'
  · subst h5; rfl
  by_cases h6 : c.toNat = 0x08
  · obtain rfl : c = Char.ofNat 0x08 := by rw [← h6, Char.ofNat_toNat]
    rfl
  by_cases h7 : c.toNat = 0x0C
  · obtain rfl : c = Char.ofNat 0x0C := by rw [← h7, Char.ofNat_toNat]
    rfl
  by_cases h8 : c.toNat < 0x20
  · simp only [h1, h2, h3, h4, h5, h6, h7, h8, if_false, if_true]
    rw [readChar_unicodeUnit h8, Char.ofNat_toNat]
  · simp only [h1, h2, h3, h4, h5, h6, h7, h8, if_false]
    exact readChar_plain h2 xs

theorem writeChar_head (c : Char) : ∃ d ds, writeChar c = d :: ds ∧ d ≠ '"' := by
  fun_cases writeChar c with
  | case9 hquote => exact ⟨c, [], rfl, hquote⟩
  | _ => exact ⟨'\\', _, rfl, by decide⟩

/-- What a character is written as is no prefix of what another is written as. -/
theorem writeChar_append_inj {c d : Char} {xs ys : List Char}
    (h : writeChar c ++ xs = writeChar d ++ ys) : c = d ∧ xs = ys := by
  have hread := congrArg readChar h
  rw [readChar_writeChar, readChar_writeChar] at hread
  simpa using hread

theorem writeChars_inj {cs ds xs ys : List Char}
    (h : cs.flatMap writeChar ++ '"' :: xs = ds.flatMap writeChar ++ '"' :: ys) :
    cs = ds ∧ xs = ys := by
  induction cs generalizing ds with
  | nil =>
    cases ds with
    | nil => simpa using h
    | cons d ds =>
      obtain ⟨e, es, he, hne⟩ := writeChar_head d
      simp [he] at h
      exact absurd h.1.symm hne
  | cons c cs ih =>
    cases ds with
    | nil =>
      obtain ⟨e, es, he, hne⟩ := writeChar_head c
      simp [he] at h
      exact absurd h.1 hne
    | cons d ds =>
      simp only [List.flatMap_cons, List.append_assoc] at h
      obtain ⟨rfl, h'⟩ := writeChar_append_inj h
      obtain ⟨rfl, rfl⟩ := ih h'
      exact ⟨rfl, rfl⟩

theorem writeString_append_inj {s t : String} {xs ys : List Char}
    (h : writeString s ++ xs = writeString t ++ ys) : s = t ∧ xs = ys := by
  simp only [writeString, List.cons_append, List.append_assoc, List.cons.injEq, true_and,
    List.nil_append] at h
  obtain ⟨hst, hxy⟩ := writeChars_inj h
  exact ⟨String.toList_inj.mp hst, hxy⟩

end CanonicalJson
