import RevenueOps.CanonicalJson
import RevenueOps.EconIntents

/-! The whole intent envelope, and how its identity is derived: the idempotency key is the
digest of five fields, and the intent id is a prefix of that key. -/
namespace IntentProposal

open EconIntents CanonicalJson
open JsonValue (Json)

structure Micro where
  value : ℤ
  nonneg : 0 ≤ value
  bounded : value ≤ 1000000

structure Explanation where
  kind : String
  components : List (String × Json)

def IntentType.wire : IntentType → String
  | .setFee => "SET_FEE"
  | .setHtlcMax => "SET_HTLC_MAX"
  | .rebalance => "REBALANCE"
  | .openChannel => "OPEN_CHANNEL"
  | .closeChannel => "CLOSE_CHANNEL"
  | .swapIn => "SWAP_IN"
  | .swapOut => "SWAP_OUT"
  | .joinLiquiditySwap => "JOIN_LIQUIDITY_SWAP"
  | .maintainOnchainReserve => "MAINTAIN_ONCHAIN_RESERVE"

/-- Wire strings of the reason codes, in the order of the catalog. -/
def catalog : List String :=
  ["BUDGET_EXHAUSTED", "AUTHORITY_LEVEL_BLOCKED", "PAUSED", "INTENT_STALE", "INTENT_SUPERSEDED",
    "CHANNEL_PROTECTED", "CONTRACT_OBLIGATION", "EV_BELOW_HOLD_MARGIN", "INSUFFICIENT_CONFIDENCE",
    "FEE_RAIL_CLAMPED", "COOLDOWN_ACTIVE", "CONFLICT_CLOSE_REBALANCE", "CONFLICT_DUPLICATE_OPEN",
    "CONFLICT_REBALANCE_SWAP", "EXTERNAL_CIRCUIT_BREAKER", "EXTERNAL_OUTCOME_UNKNOWN",
    "ARITHMETIC_OVERFLOW", "SCHEMA_INVALID"]

def isValidCode (code : String) : Bool := code ∈ catalog

/-- What authorization reads, and the rest of the envelope. -/
structure FullEnvelope extends IntentEnvelope where
  createdAt : UnixTime
  amountMsat : Option Msat
  expectedBenefitMsat : ℤ
  capitalCommittedMsat : Msat
  confidenceMicro : Micro
  reasonCodes : List String
  explanation : Explanation
  preconditions : List String
  priority : ℤ
  originPolicy : String
  reversible : Bool

structure IntentFields where
  intentType : IntentType
  snapshotId : String
  createdAt : UnixTime
  expiresAt : UnixTime
  target : String
  amountMsat : Option Msat
  expectedBenefitMsat : ℤ
  maxCostMsat : Msat
  capitalCommittedMsat : Msat
  confidenceMicro : Micro
  reasonCodes : List String
  explanation : Explanation
  preconditions : List String
  priority : ℤ
  budgetBucket : String
  originPolicy : String
  reversible : Bool

/-- SHA-256 of a text, as 64 hexadecimal digits. -/
class Sha256 where
  hexDigest : String → String

/-- Debug formatting of a text: quoted, by the Unicode tables. -/
class DebugText where
  quoted : String → String

/-- The five fields of the key, in the order in which the object lists them. -/
def keySubset (intentType : IntentType) (target : String) (amountMsat : Option Msat)
    (snapshotId budgetBucket : String) : Json :=
  .obj [("amount_msat", match amountMsat with | some m => .int m.value | none => .null),
    ("budget_bucket", .str budgetBucket), ("intent_type", .str (IntentType.wire intentType)),
    ("snapshot_id", .str snapshotId), ("target", .str target)]

/-- The text of the five fields; a subset without numbers other than integers is always written. -/
def keyText (intentType : IntentType) (target : String) (amountMsat : Option Msat)
    (snapshotId budgetBucket : String) : String :=
  match canonicalJson (keySubset intentType target amountMsat snapshotId budgetBucket) with
  | .ok canon => canon
  | .error _ => ""

def FullEnvelope.keyText (env : FullEnvelope) : String :=
  IntentProposal.keyText env.intentType env.target env.amountMsat env.snapshotId env.budgetBucket

section Derivation

variable [Sha256] [DebugText]

def computeIdempotencyKey (intentType : IntentType) (target : String) (amountMsat : Option Msat)
    (snapshotId budgetBucket : String) : String :=
  Sha256.hexDigest (keyText intentType target amountMsat snapshotId budgetBucket)

def IntentId.new (value : String) : EconResult IntentId :=
  if h : validIntentId value = true then .ok ⟨value, h⟩
  else .error ⟨s!"IntentId invalid: {DebugText.quoted value}"⟩

def FullEnvelope.validate (env : FullEnvelope) : EconResult Unit :=
  if env.snapshotId = "" ∨ env.target = "" then .error ⟨"snapshot_id and target required"⟩
  else if env.budgetBucket = "" ∨ env.originPolicy = "" then
    .error ⟨"budget_bucket and origin_policy required"⟩
  else if env.explanation.kind = "" then .error ⟨"Explanation.kind must be non-empty"⟩
  else if env.expiresAt.value ≤ env.createdAt.value then
    .error ⟨s!"expires_at ({env.expiresAt.value}) must exceed created_at ({env.createdAt.value})"⟩
  else if env.priority < 0 ∨ 100 < env.priority then .error ⟨s!"priority 0-100: {env.priority}"⟩
  else
    match env.reasonCodes.find? fun code => !isValidCode code with
    | some code => .error ⟨s!"unknown reason code: {DebugText.quoted code}"⟩
    | none => .ok ()

/-- The envelope of the fields, under the given identity. -/
def IntentFields.toEnvelope (fields : IntentFields) (intentId : IntentId) (key : String) :
    FullEnvelope :=
  { intentId := intentId
    intentType := fields.intentType
    idempotencyKey := key
    snapshotId := fields.snapshotId
    expiresAt := fields.expiresAt
    target := fields.target
    maxCostMsat := fields.maxCostMsat
    budgetBucket := fields.budgetBucket
    createdAt := fields.createdAt
    amountMsat := fields.amountMsat
    expectedBenefitMsat := fields.expectedBenefitMsat
    capitalCommittedMsat := fields.capitalCommittedMsat
    confidenceMicro := fields.confidenceMicro
    reasonCodes := fields.reasonCodes
    explanation := fields.explanation
    preconditions := fields.preconditions
    priority := fields.priority
    originPolicy := fields.originPolicy
    reversible := fields.reversible }

def makeIntent (fields : IntentFields) : EconResult FullEnvelope := do
  let key := computeIdempotencyKey fields.intentType fields.target fields.amountMsat
    fields.snapshotId fields.budgetBucket
  let intentId ← IntentId.new ("int-" ++ String.ofList (key.toList.take 16))
  let env := fields.toEnvelope intentId key
  env.validate
  pure env

/-- What make_intent returns carries the key of its own five fields. -/
theorem makeIntent_key {fields : IntentFields} {env : FullEnvelope}
    (h : makeIntent fields = .ok env) :
    env.idempotencyKey = computeIdempotencyKey env.intentType env.target env.amountMsat
        env.snapshotId env.budgetBucket ∧
      env.intentId.text = "int-" ++ String.ofList (env.idempotencyKey.toList.take 16) ∧
      env.validate = .ok () := by
  simp only [makeIntent] at h
  cases hid : IntentId.new ("int-" ++ String.ofList ((computeIdempotencyKey fields.intentType
      fields.target fields.amountMsat fields.snapshotId fields.budgetBucket).toList.take 16)) with
  | error e => simp [hid, bind, Except.bind] at h
  | ok intentId =>
    simp only [hid, bind, Except.bind] at h
    split at h
    · simp at h
    · rename_i hvalid
      obtain rfl := Except.ok.inj h
      refine ⟨rfl, ?_, hvalid⟩
      unfold IntentId.new at hid
      split at hid
      · rw [← Except.ok.inj hid]
        rfl
      · simp at hid

theorem makeIntent_ok {fields : IntentFields} {key text : String}
    (hvalid : validIntentId text = true)
    (hkey : computeIdempotencyKey fields.intentType fields.target fields.amountMsat
      fields.snapshotId fields.budgetBucket = key)
    (htext : "int-" ++ String.ofList (key.toList.take 16) = text)
    (henv : (fields.toEnvelope ⟨text, hvalid⟩ key).validate = .ok ()) :
    makeIntent fields = .ok (fields.toEnvelope ⟨text, hvalid⟩ key) := by
  have hid : IntentId.new text = .ok ⟨text, hvalid⟩ := dif_pos hvalid
  simp [makeIntent, hkey, htext, hid, henv, bind, Except.bind, pure, Except.pure]

end Derivation

theorem IntentType.wire_injective {a b : IntentType} (h : IntentType.wire a = IntentType.wire b) :
    a = b := by
  cases a <;> cases b <;> first | rfl | exact absurd h (by decide)

def amountText : Option Msat → List Char
  | some m => (toString m.value).toList
  | none => "null".toList

theorem amountText_some (m : Msat) : amountText (some m) = Nat.toDigits 10 m.value.toNat := by
  rw [amountText, Int.toString_eq_repr, Int.repr_eq_if, if_pos m.nonneg, Nat.toList_repr]

theorem amountText_none : amountText none = ['n', 'u', 'l', 'l'] := rfl

theorem comma_not_mem_amountText (amount : Option Msat) : ',' ∉ amountText amount := by
  cases amount with
  | none => decide
  | some m =>
    rw [amountText_some]
    intro h
    exact absurd (Nat.isDigit_of_mem_toDigits (by decide) (by decide) h) (by decide)

theorem null_ne_digits (n : ℕ) : ['n', 'u', 'l', 'l'] ≠ Nat.toDigits 10 n := by
  intro h
  have hmem : 'n' ∈ Nat.toDigits 10 n := h ▸ List.mem_cons_self
  exact absurd (Nat.isDigit_of_mem_toDigits (by decide) (by decide) hmem) (by decide)

theorem amountText_injective {a b : Option Msat} (h : amountText a = amountText b) : a = b := by
  cases a with
  | none =>
    cases b with
    | none => rfl
    | some m =>
      rw [amountText_none, amountText_some] at h
      exact absurd h (null_ne_digits _)
  | some m =>
    cases b with
    | none =>
      rw [amountText_none, amountText_some] at h
      exact absurd h.symm (null_ne_digits _)
    | some m' =>
      rw [amountText_some, amountText_some] at h
      have hnat : m.value.toNat = m'.value.toNat := by
        simpa using congrArg (fun ds => Nat.ofDigitChars 10 ds 0) h
      obtain ⟨v, hv, hb⟩ := m
      obtain ⟨v', hv', hb'⟩ := m'
      have hval : v = v' := by
        simp only at hnat
        omega
      subst hval
      rfl

theorem append_comma_inj {xs ys as bs : List Char} (hx : ',' ∉ xs) (hy : ',' ∉ ys)
    (h : xs ++ ',' :: as = ys ++ ',' :: bs) : xs = ys ∧ as = bs := by
  induction xs generalizing ys with
  | nil =>
    cases ys with
    | nil => simpa using h
    | cons y ys =>
      simp only [List.nil_append, List.cons_append, List.cons.injEq] at h
      exact absurd (h.1 ▸ List.mem_cons_self) hy
  | cons x xs ih =>
    cases ys with
    | nil =>
      simp only [List.nil_append, List.cons_append, List.cons.injEq] at h
      exact absurd (h.1 ▸ List.mem_cons_self) hx
    | cons y ys =>
      simp only [List.cons_append, List.cons.injEq, List.mem_cons, not_or] at h hx hy
      obtain ⟨rfl, rfl⟩ := ih hx.2 hy.2 h.2
      exact ⟨by rw [h.1], rfl⟩

theorem keyText_toList (t : IntentType) (target : String) (amount : Option Msat)
    (snapshot bucket : String) :
    (keyText t target amount snapshot bucket).toList =
      "\x7b\"amount_msat\":".toList ++ (amountText amount ++ ',' ::
        ("\"budget_bucket\":".toList ++ (writeString bucket ++ (",\"intent_type\":".toList ++
          (writeString (IntentType.wire t) ++ (",\"snapshot_id\":".toList ++
            (writeString snapshot ++ (",\"target\":".toList ++
              (writeString target ++ ['\x7d']))))))))) := by
  cases amount with
  | none =>
    simp [keyText, keySubset, canonicalJson, writeValue, writeMembers, Except.map, pure,
      Except.pure, bind, Except.bind, amountText, writeString, writeChar]
  | some m =>
    simp [keyText, keySubset, canonicalJson, writeValue, writeMembers, Except.map, pure,
      Except.pure, bind, Except.bind, amountText, writeString, writeChar]

theorem keyText_injective {t t' : IntentType} {target target' : String} {a a' : Option Msat}
    {s s' b b' : String} (h : keyText t target a s b = keyText t' target' a' s' b') :
    t = t' ∧ target = target' ∧ a = a' ∧ s = s' ∧ b = b' := by
  have hlist := congrArg String.toList h
  rw [keyText_toList, keyText_toList] at hlist
  have hamount := List.append_cancel_left hlist
  obtain ⟨ha, hrest⟩ :=
    append_comma_inj (comma_not_mem_amountText a) (comma_not_mem_amountText a') hamount
  obtain ⟨hb, hrest⟩ := writeString_append_inj (List.append_cancel_left hrest)
  obtain ⟨ht, hrest⟩ := writeString_append_inj (List.append_cancel_left hrest)
  obtain ⟨hs, hrest⟩ := writeString_append_inj (List.append_cancel_left hrest)
  obtain ⟨htarget, -⟩ := writeString_append_inj (List.append_cancel_left hrest)
  exact ⟨IntentType.wire_injective ht, htarget, amountText_injective ha, hs, hb⟩

end IntentProposal
