import RevenueOps.EconCycle

/-! The canonical text determines its value, and the writer of the cycle result, which also
takes floats, writes the same text where there are none. -/
namespace CanonicalText

open CanonicalJson EconCycle
open JsonValue (Json Integral IntegralItems IntegralMembers)

section Writer

variable [F64Text]

def pyExponent (exponent : ℤ) : List Char :=
  (if exponent < 0 then '-' else '+') ::
    ((if exponent.natAbs < 10 then ['0'] else []) ++ (toString exponent.natAbs).toList)

/-- repr(float): the debug text, but for the case of the words and the form of the exponent. -/
def pyRepr (x : Float) : List Char :=
  if x.isNaN then "nan".toList
  else if x.isInf then if 0.0 < x then "inf".toList else "-inf".toList
  else
    let s := (F64Text.debug x).toList
    match s.dropWhile fun c => c ≠ 'e' ∧ c ≠ 'E' with
    | [] => s
    | _ :: digits =>
      -- debug writes the exponent as a signed integer
      let exponent := (String.ofList digits).toInt?.getD 0
      (s.takeWhile fun c => c ≠ 'e' ∧ c ≠ 'E') ++ 'e' :: pyExponent exponent

mutual

def writeValueWithPyfloat : Json → List Char
  | .null => "null".toList
  | .bool true => "true".toList
  | .bool false => "false".toList
  | .int n => (toString n).toList
  | .float x => pyRepr x
  | .str s => writeString s
  | .arr items => '[' :: (writeItemsWithPyfloat true items ++ [']'])
  | .obj members => '\x7b' :: (writeMembersWithPyfloat true members ++ ['\x7d'])

def writeItemsWithPyfloat (first : Bool) : List Json → List Char
  | [] => []
  | j :: js =>
    (if first then [] else [',']) ++ writeValueWithPyfloat j ++ writeItemsWithPyfloat false js

def writeMembersWithPyfloat (first : Bool) : List (String × Json) → List Char
  | [] => []
  | (k, j) :: ms =>
    (if first then [] else [',']) ++ writeString k ++ [':'] ++ writeValueWithPyfloat j ++
      writeMembersWithPyfloat false ms

end

mutual

theorem writeValue_integral (path : List String) :
    ∀ j : Json, Integral j → writeValue path j = .ok (writeValueWithPyfloat j)
  | .null, _ => rfl
  | .bool true, _ => rfl
  | .bool false, _ => rfl
  | .int _, _ => rfl
  | .float _, h => absurd h (by simp [Integral])
  | .str _, _ => rfl
  | .arr items, h => by
    rw [writeValue, writeItems_integral path 0 items (by simpa [Integral] using h)]
    rfl
  | .obj members, h => by
    rw [writeValue, writeMembers_integral path true members (by simpa [Integral] using h)]
    rfl

theorem writeItems_integral (path : List String) (i : ℕ) :
    ∀ js : List Json, IntegralItems js →
      writeItems path i js = .ok (writeItemsWithPyfloat (i = 0) js)
  | [], _ => rfl
  | j :: js, h => by
    rw [writeItems, writeValue_integral _ j h.1, writeItems_integral path (i + 1) js h.2]
    by_cases hi : i = 0 <;> simp [hi, writeItemsWithPyfloat, bind, Except.bind, pure, Except.pure]

theorem writeMembers_integral (path : List String) (first : Bool) :
    ∀ ms : List (String × Json), IntegralMembers ms →
      writeMembers path first ms = .ok (writeMembersWithPyfloat first ms)
  | [], _ => rfl
  | (k, j) :: ms, h => by
    rw [writeMembers, writeValue_integral _ j h.1, writeMembers_integral path false ms h.2]
    rfl

end

mutual

theorem writeValue_error (path : List String) :
    ∀ j : Json, ¬ Integral j → ∃ e, writeValue path j = .error e
  | .null, h => absurd trivial h
  | .bool true, h => absurd trivial h
  | .bool false, h => absurd trivial h
  | .int _, h => absurd trivial h
  | .float _, _ => ⟨_, rfl⟩
  | .str _, h => absurd trivial h
  | .arr items, h => by
    obtain ⟨e, he⟩ := writeItems_error path 0 items (by simpa [Integral] using h)
    exact ⟨e, by rw [writeValue, he]; rfl⟩
  | .obj members, h => by
    obtain ⟨e, he⟩ := writeMembers_error path true members (by simpa [Integral] using h)
    exact ⟨e, by rw [writeValue, he]; rfl⟩

theorem writeItems_error (path : List String) (i : ℕ) :
    ∀ js : List Json, ¬ IntegralItems js → ∃ e, writeItems path i js = .error e
  | [], h => absurd trivial h
  | j :: js, h => by
    by_cases hj : Integral j
    · obtain ⟨e, he⟩ := writeItems_error path (i + 1) js fun hjs => h ⟨hj, hjs⟩
      exact ⟨e, by rw [writeItems, writeValue_integral _ j hj, he]; rfl⟩
    · obtain ⟨e, he⟩ := writeValue_error (path ++ [toString i]) j hj
      exact ⟨e, by rw [writeItems, he]; rfl⟩

theorem writeMembers_error (path : List String) (first : Bool) :
    ∀ ms : List (String × Json), ¬ IntegralMembers ms → ∃ e, writeMembers path first ms = .error e
  | [], h => absurd trivial h
  | (k, j) :: ms, h => by
    by_cases hj : Integral j
    · obtain ⟨e, he⟩ := writeMembers_error path false ms fun hms => h ⟨hj, hms⟩
      exact ⟨e, by rw [writeMembers, writeValue_integral _ j hj, he]; rfl⟩
    · obtain ⟨e, he⟩ := writeValue_error (path ++ [k]) j hj
      exact ⟨e, by rw [writeMembers, he]; rfl⟩

end

theorem canonicalJson_integral {j : Json} (h : Integral j) :
    canonicalJson j = .ok (String.ofList (writeValueWithPyfloat j)) := by
  rw [canonicalJson, writeValue_integral [] j h]
  rfl

theorem canonicalJson_error_iff (j : Json) :
    (∃ e, canonicalJson j = .error e) ↔ ¬ Integral j := by
  constructor
  · rintro ⟨e, he⟩ hj
    rw [canonicalJson_integral hj] at he
    simp at he
  · intro hj
    obtain ⟨e, he⟩ := writeValue_error [] j hj
    exact ⟨e, by rw [canonicalJson, he]; rfl⟩

end Writer

section Numbers

/-- What follows a number in the text does not go on with a digit. -/
def Stops (xs : List Char) : Prop := ∀ c ∈ xs.head?, c.isDigit = false

@[simp] theorem stops_nil : Stops [] := by simp [Stops]

@[simp] theorem stops_cons {c : Char} {xs : List Char} :
    Stops (c :: xs) ↔ c.isDigit = false := by simp [Stops]

variable {xs ys : List Char}

theorem digits_append_inj {ds es : List Char} (hd : ∀ c ∈ ds, c.isDigit = true)
    (he : ∀ c ∈ es, c.isDigit = true) (hx : Stops xs) (hy : Stops ys)
    (h : ds ++ xs = es ++ ys) : ds = es ∧ xs = ys := by
  induction ds generalizing es with
  | nil =>
    cases es with
    | nil => exact ⟨rfl, h⟩
    | cons e es =>
      obtain rfl : xs = e :: (es ++ ys) := h
      have hdigit := he e List.mem_cons_self
      rw [stops_cons.mp hx] at hdigit
      exact absurd hdigit (by decide)
  | cons d ds ih =>
    have hdigit := hd d List.mem_cons_self
    cases es with
    | nil =>
      obtain rfl : d :: (ds ++ xs) = ys := h
      rw [stops_cons.mp hy] at hdigit
      exact absurd hdigit (by decide)
    | cons e es =>
      rw [List.cons_append, List.cons_append, List.cons.injEq] at h
      obtain ⟨rfl, hxy⟩ := ih (fun c hc => hd c (List.mem_cons_of_mem d hc))
        (fun c hc => he c (List.mem_cons_of_mem e hc)) h.2
      exact ⟨by rw [h.1], hxy⟩

theorem toDigits_isDigit (n : ℕ) : ∀ c ∈ Nat.toDigits 10 n, c.isDigit = true :=
  fun _ hc => Nat.isDigit_of_mem_toDigits (by decide) (by decide) hc

theorem toDigits_append_inj {n m : ℕ} (hx : Stops xs) (hy : Stops ys)
    (h : Nat.toDigits 10 n ++ xs = Nat.toDigits 10 m ++ ys) : n = m ∧ xs = ys := by
  obtain ⟨hdigits, hxy⟩ :=
    digits_append_inj (toDigits_isDigit n) (toDigits_isDigit m) hx hy h
  have hnat : n = m := by simpa using congrArg (fun ds => Nat.ofDigitChars 10 ds 0) hdigits
  exact ⟨hnat, hxy⟩

theorem minus_ne_toDigits (n : ℕ) (cs : List Char) : '-' :: cs ≠ Nat.toDigits 10 n ++ xs := by
  intro h
  cases hdigits : Nat.toDigits 10 n with
  | nil => exact absurd hdigits Nat.toDigits_ne_nil
  | cons d ds =>
    rw [hdigits, List.cons_append, List.cons.injEq] at h
    have hd := toDigits_isDigit n d (hdigits ▸ List.mem_cons_self)
    rw [← h.1] at hd
    exact absurd hd (by decide)

theorem intText (n : ℤ) : (toString n).toList =
    if 0 ≤ n then Nat.toDigits 10 n.toNat else '-' :: Nat.toDigits 10 (-n).toNat := by
  rw [Int.toString_eq_repr, Int.repr_eq_if]
  split
  · rw [Nat.toList_repr]
  · rw [String.toList_append, Nat.toList_repr]
    rfl

theorem intText_append_inj {n m : ℤ} (hx : Stops xs) (hy : Stops ys)
    (h : (toString n).toList ++ xs = (toString m).toList ++ ys) : n = m ∧ xs = ys := by
  rw [intText, intText] at h
  split_ifs at h with hn hm hm
  · obtain ⟨hnat, hxy⟩ := toDigits_append_inj hx hy h
    exact ⟨by omega, hxy⟩
  · exact absurd h.symm (minus_ne_toDigits _ _)
  · exact absurd h (minus_ne_toDigits _ _)
  · rw [List.cons_append, List.cons_append, List.cons.injEq] at h
    obtain ⟨hnat, hxy⟩ := toDigits_append_inj hx hy h.2
    exact ⟨by omega, hxy⟩

end Numbers

section Injectivity

def announces (c : Char) : ℕ :=
  if c = 'n' then 0
  else if c = 't' then 1
  else if c = 'f' then 2
  else if c = '"' then 3
  else if c = '[' then 4
  else if c = '\x7b' then 5
  else if c = '-' ∨ c.isDigit then 6
  else 7

def kind : Json → ℕ
  | .null => 0
  | .bool true => 1
  | .bool false => 2
  | .str _ => 3
  | .arr _ => 4
  | .obj _ => 5
  | .int _ | .float _ => 6

theorem kind_lt (j : Json) : kind j < 7 := by
  unfold kind
  split <;> omega

theorem announces_digit {c : Char} (h : c.isDigit = true) : announces c = 6 := by
  have hne : ∀ d : Char, d.isDigit = false → c ≠ d := by
    rintro d hd rfl
    rw [h] at hd
    simp at hd
  unfold announces
  rw [if_neg (hne _ (by decide)), if_neg (hne _ (by decide)), if_neg (hne _ (by decide)),
    if_neg (hne _ (by decide)), if_neg (hne _ (by decide)), if_neg (hne _ (by decide)),
    if_pos (.inr h)]

variable [F64Text]

theorem writeValueWithPyfloat_head {j : Json} (h : Integral j) :
    ∃ c cs, writeValueWithPyfloat j = c :: cs ∧ announces c = kind j := by
  cases j with
  | null => exact ⟨_, _, rfl, rfl⟩
  | bool b => cases b <;> exact ⟨_, _, rfl, rfl⟩
  | float x => exact absurd h (by simp [Integral])
  | str s => exact ⟨_, _, rfl, rfl⟩
  | arr items => exact ⟨_, _, rfl, rfl⟩
  | obj members => exact ⟨_, _, rfl, rfl⟩
  | int n =>
    rw [writeValueWithPyfloat, intText]
    split
    · cases hdigits : Nat.toDigits 10 n.toNat with
      | nil => exact absurd hdigits Nat.toDigits_ne_nil
      | cons d ds =>
        exact ⟨d, ds, rfl, announces_digit (toDigits_isDigit _ d (hdigits ▸ List.mem_cons_self))⟩
    · exact ⟨_, _, rfl, rfl⟩

theorem kind_eq {v w : Json} {xs ys : List Char} (hv : Integral v) (hw : Integral w)
    (h : writeValueWithPyfloat v ++ xs = writeValueWithPyfloat w ++ ys) : kind v = kind w := by
  obtain ⟨c, cs, hc, hkc⟩ := writeValueWithPyfloat_head hv
  obtain ⟨d, ds, hd, hkd⟩ := writeValueWithPyfloat_head hw
  rw [hc, hd, List.cons_append, List.cons_append, List.cons.injEq] at h
  rw [← hkc, ← hkd, h.1]

theorem ne_writeValueWithPyfloat {c : Char} {cs xs : List Char} {j : Json} (hc : announces c = 7)
    (hj : Integral j) : c :: cs ≠ writeValueWithPyfloat j ++ xs := by
  intro h
  obtain ⟨d, ds, hd, hk⟩ := writeValueWithPyfloat_head hj
  rw [hd, List.cons_append, List.cons.injEq] at h
  have hlt := kind_lt j
  rw [← hk, ← h.1, hc] at hlt
  omega

theorem stops_items (js : List Json) (xs : List Char) :
    Stops (writeItemsWithPyfloat false js ++ ']' :: xs) := by
  cases js <;> simp [writeItemsWithPyfloat]

theorem stops_members (ms : List (String × Json)) (xs : List Char) :
    Stops (writeMembersWithPyfloat false ms ++ '\x7d' :: xs) := by
  cases ms <;> simp [writeMembersWithPyfloat]

theorem bracket_ne_items {first : Bool} {j : Json} {js : List Json} {xs ys : List Char}
    (hj : Integral j) : ']' :: xs ≠ writeItemsWithPyfloat first (j :: js) ++ ys := by
  cases first with
  | false =>
    intro h
    simp [writeItemsWithPyfloat] at h
  | true =>
    simp only [writeItemsWithPyfloat, if_true, List.nil_append, List.append_assoc]
    exact ne_writeValueWithPyfloat (by decide) hj

theorem brace_ne_members {first : Bool} {m : String × Json} {ms : List (String × Json)}
    {xs ys : List Char} : '\x7d' :: xs ≠ writeMembersWithPyfloat first (m :: ms) ++ ys := by
  intro h
  cases first <;> simp [writeMembersWithPyfloat, writeString] at h

mutual

/-- A value, written in front of a text that no number runs into, is read off it. -/
theorem writeValueWithPyfloat_append_inj {xs ys : List Char} :
    ∀ v w : Json, Integral v → Integral w → Stops xs → Stops ys →
      writeValueWithPyfloat v ++ xs = writeValueWithPyfloat w ++ ys → v = w ∧ xs = ys := by
  intro v w hv hw hx hy h
  have hkind := kind_eq hv hw h
  match v with
  | .null =>
    cases w with
    | null => exact ⟨rfl, List.append_cancel_left h⟩
    | bool b => cases b <;> simp [kind] at hkind
    | _ => simp [kind] at hkind
  | .bool b =>
    cases w with
    | bool b' =>
      cases b <;> cases b' <;>
        first | exact ⟨rfl, List.append_cancel_left h⟩ | simp [kind] at hkind
    | _ => cases b <;> simp [kind] at hkind
  | .float _ => exact absurd hv (by simp [Integral])
  | .int n =>
    cases w with
    | int m =>
      obtain ⟨rfl, hxy⟩ := intText_append_inj hx hy h
      exact ⟨rfl, hxy⟩
    | float x => exact absurd hw (by simp [Integral])
    | bool b => cases b <;> simp [kind] at hkind
    | _ => simp [kind] at hkind
  | .str s =>
    cases w with
    | str t =>
      obtain ⟨rfl, hxy⟩ := writeString_append_inj h
      exact ⟨rfl, hxy⟩
    | bool b => cases b <;> simp [kind] at hkind
    | _ => simp [kind] at hkind
  | .arr items =>
    cases w with
    | arr items' =>
      simp only [writeValueWithPyfloat, List.cons_append, List.append_assoc, List.nil_append,
        List.cons.injEq, true_and] at h
      obtain ⟨rfl, hxy⟩ := writeItemsWithPyfloat_append_inj true items items'
        (by simpa [Integral] using hv) (by simpa [Integral] using hw) h
      exact ⟨rfl, hxy⟩
    | bool b => cases b <;> simp [kind] at hkind
    | _ => simp [kind] at hkind
  | .obj members =>
    cases w with
    | obj members' =>
      simp only [writeValueWithPyfloat, List.cons_append, List.append_assoc, List.nil_append,
        List.cons.injEq, true_and] at h
      obtain ⟨rfl, hxy⟩ := writeMembersWithPyfloat_append_inj true members members'
        (by simpa [Integral] using hv) (by simpa [Integral] using hw) h
      exact ⟨rfl, hxy⟩
    | bool b => cases b <;> simp [kind] at hkind
    | _ => simp [kind] at hkind

theorem writeItemsWithPyfloat_append_inj {xs ys : List Char} (first : Bool) :
    ∀ js ks : List Json, IntegralItems js → IntegralItems ks →
      writeItemsWithPyfloat first js ++ ']' :: xs = writeItemsWithPyfloat first ks ++ ']' :: ys →
        js = ks ∧ xs = ys := by
  intro js ks hjs hks h
  match js, ks with
  | [], [] => simpa [writeItemsWithPyfloat] using h
  | [], k :: ks => exact absurd h (bracket_ne_items hks.1)
  | j :: js, [] => exact absurd h.symm (bracket_ne_items hjs.1)
  | j :: js, k :: ks =>
    rw [writeItemsWithPyfloat, writeItemsWithPyfloat, List.append_assoc, List.append_assoc,
      List.append_assoc, List.append_assoc] at h
    obtain ⟨rfl, hrest⟩ := writeValueWithPyfloat_append_inj j k hjs.1 hks.1
      (stops_items js xs) (stops_items ks ys) (List.append_cancel_left h)
    obtain ⟨rfl, hxy⟩ := writeItemsWithPyfloat_append_inj false js ks hjs.2 hks.2 hrest
    exact ⟨rfl, hxy⟩

theorem writeMembersWithPyfloat_append_inj {xs ys : List Char} (first : Bool) :
    ∀ ms ns : List (String × Json), IntegralMembers ms → IntegralMembers ns →
      writeMembersWithPyfloat first ms ++ '\x7d' :: xs =
        writeMembersWithPyfloat first ns ++ '\x7d' :: ys → ms = ns ∧ xs = ys := by
  intro ms ns hms hns h
  match ms, ns with
  | [], [] => simpa [writeMembersWithPyfloat] using h
  | [], n :: ns => exact absurd h brace_ne_members
  | m :: ms, [] => exact absurd h.symm brace_ne_members
  | (k, j) :: ms, (k', j') :: ns =>
    simp only [writeMembersWithPyfloat, List.append_assoc] at h
    obtain ⟨rfl, hvalue⟩ := writeString_append_inj (List.append_cancel_left h)
    obtain ⟨rfl, hrest⟩ := writeValueWithPyfloat_append_inj j j' hms.1 hns.1
      (stops_members ms xs) (stops_members ns ys) (List.append_cancel_left hvalue)
    obtain ⟨rfl, hxy⟩ := writeMembersWithPyfloat_append_inj false ms ns hms.2 hns.2 hrest
    exact ⟨rfl, hxy⟩

end

theorem canonicalJson_injective {v w : Json} (hv : Integral v) (hw : Integral w)
    (h : canonicalJson v = canonicalJson w) : v = w := by
  rw [canonicalJson_integral hv, canonicalJson_integral hw, Except.ok.injEq,
    String.ofList_inj] at h
  have hend : writeValueWithPyfloat v ++ [] = writeValueWithPyfloat w ++ [] := by rw [h]
  exact (writeValueWithPyfloat_append_inj v w hv hw stops_nil stops_nil hend).1

end Injectivity

section Preimage

/-- The five fields of the idempotency key as compute_idempotency_key takes them. -/
structure KeyFields where
  intentType : String
  target : String
  amountMsat : Option ℤ
  snapshotId : String
  budgetBucket : String

def amountJson : Option ℤ → Json
  | none => .null
  | some n => .int n

def KeyFields.subset (f : KeyFields) : Json :=
  .obj [("amount_msat", amountJson f.amountMsat), ("budget_bucket", .str f.budgetBucket),
    ("intent_type", .str f.intentType), ("snapshot_id", .str f.snapshotId),
    ("target", .str f.target)]

def KeyFields.preimage (f : KeyFields) : Except CanonicalError String := canonicalJson f.subset

theorem integral_subset (f : KeyFields) : Integral f.subset := by
  obtain ⟨t, target, amount, snapshot, bucket⟩ := f
  cases amount <;> simp [KeyFields.subset, amountJson, Integral, IntegralMembers]

theorem subset_injective {f g : KeyFields} (h : f.subset = g.subset) : f = g := by
  obtain ⟨t, target, amount, snapshot, bucket⟩ := f
  obtain ⟨t', target', amount', snapshot', bucket'⟩ := g
  cases amount <;> cases amount' <;> simp_all [KeyFields.subset, amountJson]

end Preimage

/-- The canonical text is there exactly for values without floats, tells them apart, and is what
the writer of the cycle result writes; so the text that is hashed tells the key fields apart. -/
theorem canonical_json_faithful [F64Text] :
    (∀ v w : Json, Integral v → Integral w → canonicalJson v = canonicalJson w → v = w) ∧
    (∀ f g : KeyFields, f.preimage = g.preimage → f = g) ∧
    (∀ v : Json, (∃ e, canonicalJson v = .error e) ↔ ¬ Integral v) ∧
    (∀ v : Json, Integral v → canonicalJson v = .ok (String.ofList (writeValueWithPyfloat v))) :=
  ⟨fun _ _ => canonicalJson_injective,
    fun f g h => subset_injective
      (canonicalJson_injective (integral_subset f) (integral_subset g) h),
    canonicalJson_error_iff, fun _ => canonicalJson_integral⟩

def forgedFields : KeyFields :=
  ⟨"REBALANCE", "b", some 1000, "snap\",\"target\":\"a", "rebalance"⟩

def plainFields : KeyFields := ⟨"REBALANCE", "a", some 1000, "snap", "rebalance"⟩

theorem forged_fields_told_apart :
    forgedFields.preimage ≠ plainFields.preimage ∧ forgedFields.subset ≠ plainFields.subset ∧
      canonicalJson forgedFields.subset =
        .ok (String.ofList (@writeValueWithPyfloat plainF64Text forgedFields.subset)) := by
  have hne : forgedFields ≠ plainFields := by simp [forgedFields, plainFields]
  obtain ⟨hvalues, hkeys, -, hsame⟩ := @canonical_json_faithful plainF64Text
  refine ⟨fun h => hne (hkeys _ _ h), ?_, hsame _ (integral_subset _)⟩
  intro h
  exact hne (subset_injective
    (hvalues _ _ (integral_subset _) (integral_subset _) (congrArg canonicalJson h)))

end CanonicalText
