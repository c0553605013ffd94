import RevenueOps.Arbiter
import RevenueOps.RustNumber

/-! The wire form of the intent envelope. The encoder writes every field; the decoder takes
each through the checked constructor of its type, and validates what it has built. -/
namespace IntentWire

open EconIntents IntentProposal RustNumber
open JsonValue (Json)

def schemaName : String := "intent"

def schemaVersion : ℤ := 0

def componentWire (component : String × Json) : Json := .arr [.str component.1, component.2]

def amountWire : Option Msat → Json
  | none => .null
  | some m => .int m.value

def textsWire (texts : List String) : Json := .arr (texts.map .str)

def explanationWire (explanation : Explanation) : Json :=
  .obj [("components", .arr (explanation.components.map componentWire)),
    ("kind", .str explanation.kind)]

def toWire (env : FullEnvelope) : Json :=
  .obj [("amount_msat", amountWire env.amountMsat),
    ("budget_bucket", .str env.budgetBucket),
    ("capital_committed_msat", .int env.capitalCommittedMsat.value),
    ("confidence_micro", .int env.confidenceMicro.value),
    ("created_at", .int env.createdAt.value),
    ("expected_benefit_msat", .int env.expectedBenefitMsat),
    ("expires_at", .int env.expiresAt.value),
    ("explanation", explanationWire env.explanation),
    ("idempotency_key", .str env.idempotencyKey),
    ("intent_id", .str env.intentId.text),
    ("intent_type", .str (IntentType.wire env.intentType)),
    ("max_cost_msat", .int env.maxCostMsat.value),
    ("origin_policy", .str env.originPolicy),
    ("preconditions", textsWire env.preconditions),
    ("priority", .int env.priority),
    ("reason_codes", textsWire env.reasonCodes),
    ("reversible", .bool env.reversible),
    ("schema_name", .str schemaName),
    ("schema_version", .int schemaVersion),
    ("snapshot_id", .str env.snapshotId),
    ("target", .str env.target)]

theorem nonneg_of_in_range {value : ℤ} (h : ¬(value < 0 ∨ u63Max < value)) : 0 ≤ value :=
  not_lt.mp (not_or.mp h).1

theorem le_of_in_range {value : ℤ} (h : ¬(value < 0 ∨ u63Max < value)) : value ≤ u63Max :=
  not_lt.mp (not_or.mp h).2

def Msat.new (value : ℤ) : EconResult Msat :=
  if h : value < 0 ∨ u63Max < value then
    .error ⟨s!"Msat out of range [0, {u63Max}]: {value}"⟩
  else .ok ⟨value, nonneg_of_in_range h, le_of_in_range h⟩

def Micro.new (value : ℤ) : EconResult Micro :=
  if h : value < 0 ∨ 1000000 < value then
    .error ⟨s!"Micro out of range [0, 1000000]: {value}"⟩
  else .ok ⟨value, by omega, by omega⟩

def intentTypes : List IntentType :=
  [.setFee, .setHtlcMax, .rebalance, .openChannel, .closeChannel, .swapIn, .swapOut,
    .joinLiquiditySwap, .maintainOnchainReserve]

def asArray : Json → Option (List Json)
  | .arr items => some items
  | _ => none

def debugOption : Option String → String
  | some text => "Some(" ++ text ++ ")"
  | none => "None"

section Decoder

variable [DebugText]

def wireStr (d : Json) (key : String) : EconResult String :=
  match (d.get key).bind Json.asStr with
  | some s => .ok s
  | none => .error ⟨s!"intent wire: missing/invalid string field {DebugText.quoted key}"⟩

def wireI64 (d : Json) (key : String) : EconResult ℤ :=
  match (d.get key).bind Json.asI64 with
  | some n => .ok n
  | none => .error ⟨s!"intent wire: missing/invalid integer field {DebugText.quoted key}"⟩

def wireBool (d : Json) (key : String) : EconResult Bool :=
  match (d.get key).bind Json.asBool with
  | some b => .ok b
  | none => .error ⟨s!"intent wire: missing/invalid boolean field {DebugText.quoted key}"⟩

def wireStrArray (d : Json) (key : String) : EconResult (List String) :=
  match (d.get key).bind asArray with
  | some items => items.mapM fun v =>
    match v.asStr with
    | some s => .ok s
    | none => .error ⟨s!"intent wire: {key} entries must be strings"⟩
  | none => .error ⟨s!"intent wire: missing/invalid array field {DebugText.quoted key}"⟩

def checkSchema (d : Json) : EconResult Unit :=
  let name := (d.get "schema_name").bind Json.asStr
  let version := (d.get "schema_version").bind Json.asI64
  if name = some schemaName ∧ version = some schemaVersion then .ok ()
  else .error
    ⟨s!"intent wire schema mismatch: {debugOption (name.map DebugText.quoted)} v{debugOption (version.map toString)}"⟩

/-- A missing amount is an absent one, as null is. -/
def wireAmount (d : Json) : EconResult (Option Msat) :=
  match d.get "amount_msat" with
  | none | some .null => .ok none
  | some v =>
    match v.asI64 with
    | some raw => (Msat.new raw).map some
    | none => .error ⟨"intent wire: amount_msat must be an integer or null"⟩

def wireComponent : Json → EconResult (String × Json)
  | .arr [name, value] =>
    match name.asStr with
    | some name => .ok (name, value)
    | none => .error ⟨"intent wire: explanation.components name must be a string"⟩
  | .arr _ =>
    .error ⟨"intent wire: explanation.components entries must have exactly 2 elements"⟩
  | _ => .error ⟨"intent wire: explanation.components entries must be [name, value] pairs"⟩

def wireExplanation (d : Json) : EconResult Explanation :=
  match d.get "explanation" with
  | none => .error ⟨"intent wire: missing field \"explanation\""⟩
  | some value => do
    let kind ← wireStr value "kind"
    match (value.get "components").bind asArray with
    | none => .error ⟨"intent wire: explanation.components must be an array"⟩
    | some items => do
      let components ← items.mapM wireComponent
      pure ⟨kind, components⟩

def wirePriority (d : Json) : EconResult ℤ := do
  let raw ← wireI64 d "priority"
  if -2 ^ 31 ≤ raw ∧ raw < 2 ^ 31 then .ok raw
  else .error ⟨s!"intent wire: priority out of range: {raw}"⟩

/-- The first check of validate, which the type of the envelope takes the place of. -/
def knownType (text : String) : EconResult IntentType :=
  match intentTypes.find? fun t => IntentType.wire t = text with
  | some t => .ok t
  | none => .error ⟨s!"unknown intent_type: {DebugText.quoted text}"⟩

def fromWire (d : Json) : EconResult FullEnvelope := do
  checkSchema d
  let amountMsat ← wireAmount d
  let explanation ← wireExplanation d
  let priority ← wirePriority d
  let intentId ← wireStr d "intent_id" >>= IntentId.new
  let typeText ← wireStr d "intent_type"
  let idempotencyKey ← wireStr d "idempotency_key"
  let snapshotId ← wireStr d "snapshot_id"
  let createdAt ← wireI64 d "created_at" >>= UnixTime.new
  let expiresAt ← wireI64 d "expires_at" >>= UnixTime.new
  let target ← wireStr d "target"
  let expectedBenefitMsat ← wireI64 d "expected_benefit_msat"
  let maxCostMsat ← wireI64 d "max_cost_msat" >>= Msat.new
  let capitalCommittedMsat ← wireI64 d "capital_committed_msat" >>= Msat.new
  let confidenceMicro ← wireI64 d "confidence_micro" >>= Micro.new
  let reasonCodes ← wireStrArray d "reason_codes"
  let preconditions ← wireStrArray d "preconditions"
  let budgetBucket ← wireStr d "budget_bucket"
  let originPolicy ← wireStr d "origin_policy"
  let reversible ← wireBool d "reversible"
  let intentType ← knownType typeText
  let env : FullEnvelope := {
    intentId, intentType, idempotencyKey, snapshotId, expiresAt, target, maxCostMsat,
    budgetBucket, createdAt, amountMsat, expectedBenefitMsat, capitalCommittedMsat,
    confidenceMicro, reasonCodes, explanation, preconditions, priority, originPolicy,
    reversible }
  env.validate
  pure env

end Decoder

structure Valid (env : FullEnvelope) : Prop where
  snapshotId : env.snapshotId ≠ ""
  target : env.target ≠ ""
  budgetBucket : env.budgetBucket ≠ ""
  originPolicy : env.originPolicy ≠ ""
  kind : env.explanation.kind ≠ ""
  expiry : env.createdAt.value < env.expiresAt.value
  priority : 0 ≤ env.priority ∧ env.priority ≤ 100
  reasonCodes : ∀ code ∈ env.reasonCodes, isValidCode code = true

section Ranges

theorem Msat.new_value (m : Msat) : Msat.new m.value = .ok m := by
  have h := m.nonneg
  have h' := m.bounded
  rw [Msat.new, dif_neg (by omega)]

theorem Micro.new_value (m : Micro) : Micro.new m.value = .ok m := by
  have h := m.nonneg
  have h' := m.bounded
  rw [Micro.new, dif_neg (by omega)]

theorem UnixTime.new_value (t : UnixTime) : UnixTime.new t.value = .ok t :=
  UnixTime.new_ok_iff.mpr rfl

theorem asI64_int {n : ℤ} (hn : InI64 n) : (Json.int n).asI64 = some n := by
  unfold InI64 at hn
  exact if_pos (by omega)

theorem asI64_bounds {v : Json} {n : ℤ} (h : v.asI64 = some n) : InI64 n := by
  cases v with
  | int m =>
    rw [Json.asI64] at h
    split at h
    · rename_i hm
      obtain rfl := Option.some.inj h
      unfold InI64
      omega
    · simp at h
  | _ => simp [Json.asI64] at h

theorem inI64_of_bounds {n : ℤ} (h : 0 ≤ n) (h' : n ≤ u63Max) : InI64 n := by
  unfold InI64
  unfold u63Max at h'
  omega

theorem inI64_msat (m : Msat) : InI64 m.value := inI64_of_bounds m.nonneg m.bounded

theorem inI64_time (t : UnixTime) : InI64 t.value := inI64_of_bounds t.nonneg t.bounded

theorem inI64_micro (m : Micro) : InI64 m.value := by
  have h := m.nonneg
  have h' := m.bounded
  unfold InI64
  omega

theorem bind_eq_ok {α β : Type} {x : EconResult α} {f : α → EconResult β} {b : β} :
    (x >>= f) = .ok b ↔ ∃ a, x = .ok a ∧ f a = .ok b := by
  cases x with
  | error e => simp [bind, Except.bind]
  | ok a => simp [bind, Except.bind]

end Ranges

section RoundTrip

variable [DebugText] {d : Json} {key : String}

theorem validate_ok_iff {env : FullEnvelope} : env.validate = .ok () ↔ Valid env := by
  unfold FullEnvelope.validate
  constructor
  · intro h
    split_ifs at h with hids hbuckets hkind hexpiry hpriority
    cases hfind : env.reasonCodes.find? fun code => !isValidCode code with
    | some code => simp [hfind] at h
    | none =>
      rw [List.find?_eq_none] at hfind
      rw [not_or] at hids hbuckets hpriority
      refine ⟨hids.1, hids.2, hbuckets.1, hbuckets.2, hkind, by omega, by omega, ?_⟩
      intro code hcode
      simpa using hfind code hcode
  · intro h
    have hpriority := h.priority
    have hexpiry := h.expiry
    have hfind : (env.reasonCodes.find? fun code => !isValidCode code) = none := by
      rw [List.find?_eq_none]
      intro code hcode
      simp [h.reasonCodes code hcode]
    rw [if_neg (not_or.mpr ⟨h.snapshotId, h.target⟩),
      if_neg (not_or.mpr ⟨h.budgetBucket, h.originPolicy⟩), if_neg h.kind,
      if_neg (by omega), if_neg (by omega), hfind]

theorem IntentId.new_text (i : IntentId) : IntentId.new i.text = .ok i := dif_pos i.valid

theorem knownType_wire (t : IntentType) : knownType (IntentType.wire t) = .ok t := by
  cases t <;> rfl

theorem wireStr_ok {s : String} (h : d.get key = some (.str s)) : wireStr d key = .ok s := by
  simp [wireStr, h, Json.asStr]

theorem wireI64_ok {n : ℤ} (h : d.get key = some (.int n)) (hn : InI64 n) :
    wireI64 d key = .ok n := by
  simp [wireI64, h, asI64_int hn]

theorem wireI64_bounds {n : ℤ} (h : wireI64 d key = .ok n) : InI64 n := by
  unfold wireI64 at h
  split at h
  · rename_i m hm
    obtain ⟨v, -, hv⟩ := Option.bind_eq_some_iff.mp hm
    rw [← Except.ok.inj h]
    exact asI64_bounds hv
  · simp at h

theorem wireBool_ok {b : Bool} (h : d.get key = some (.bool b)) : wireBool d key = .ok b := by
  simp [wireBool, h, Json.asBool]

theorem wireStrArray_ok {texts : List String} (h : d.get key = some (textsWire texts)) :
    wireStrArray d key = .ok texts := by
  have hall : ∀ ts : List String, (ts.map Json.str).mapM (fun v =>
      match v.asStr with
      | some s => (.ok s : EconResult String)
      | none => .error ⟨s!"intent wire: {key} entries must be strings"⟩) = .ok ts := by
    intro ts
    induction ts with
    | nil => rfl
    | cons t ts ih =>
      rw [List.map_cons, List.mapM_cons, ih]
      rfl
  simp only [wireStrArray, h, textsWire, Option.bind_some, asArray]
  exact hall texts

omit [DebugText] in
theorem wireAmount_ok {amount : Option Msat} (h : d.get "amount_msat" = some (amountWire amount)) :
    wireAmount d = .ok amount := by
  cases amount with
  | none => simp [wireAmount, h, amountWire]
  | some m =>
    simp only [wireAmount, h, amountWire, asI64_int (inI64_msat m), Msat.new_value]
    rfl

theorem wireExplanation_ok {explanation : Explanation}
    (h : d.get "explanation" = some (explanationWire explanation)) :
    wireExplanation d = .ok explanation := by
  have hall : ∀ components : List (String × Json),
      (components.map componentWire).mapM wireComponent = .ok components := by
    intro components
    induction components with
    | nil => rfl
    | cons c cs ih =>
      rw [List.map_cons, List.mapM_cons, ih]
      rfl
  have hkind : wireStr (explanationWire explanation) "kind" = .ok explanation.kind :=
    wireStr_ok rfl
  have hcomponents : ((explanationWire explanation).get "components").bind asArray =
      some (explanation.components.map componentWire) := rfl
  simp only [wireExplanation, h, hkind, hcomponents, bind, Except.bind]
  rw [hall]
  rfl

theorem wirePriority_ok {p : ℤ} (h : d.get "priority" = some (.int p)) (hp : 0 ≤ p ∧ p ≤ 100) :
    wirePriority d = .ok p := by
  have hread : wireI64 d "priority" = .ok p := wireI64_ok h (by unfold InI64; omega)
  simp only [wirePriority, hread, bind, Except.bind]
  rw [if_pos (by omega)]

theorem checkSchema_toWire (env : FullEnvelope) : checkSchema (toWire env) = .ok () := by
  have hname : ((toWire env).get "schema_name").bind Json.asStr = some schemaName := rfl
  have hversion : ((toWire env).get "schema_version").bind Json.asI64 = some schemaVersion := rfl
  simp only [checkSchema, hname, hversion, and_self, if_true]

omit [DebugText] in
theorem ok_bind {ε α β : Type} (a : α) (f : α → Except ε β) : (Except.ok a >>= f) = f a := rfl

theorem fromWire_toWire {env : FullEnvelope} (h : Valid env)
    (hbenefit : InI64 env.expectedBenefitMsat) : fromWire (toWire env) = .ok env := by
  have hamount : wireAmount (toWire env) = .ok env.amountMsat := wireAmount_ok rfl
  have hexplanation : wireExplanation (toWire env) = .ok env.explanation := wireExplanation_ok rfl
  have hpriority : wirePriority (toWire env) = .ok env.priority := wirePriority_ok rfl h.priority
  have hid : wireStr (toWire env) "intent_id" = .ok env.intentId.text := wireStr_ok rfl
  have htype : wireStr (toWire env) "intent_type" = .ok (IntentType.wire env.intentType) :=
    wireStr_ok rfl
  have hkey : wireStr (toWire env) "idempotency_key" = .ok env.idempotencyKey := wireStr_ok rfl
  have hsnapshot : wireStr (toWire env) "snapshot_id" = .ok env.snapshotId := wireStr_ok rfl
  have hcreated : wireI64 (toWire env) "created_at" = .ok env.createdAt.value :=
    wireI64_ok rfl (inI64_time _)
  have hexpires : wireI64 (toWire env) "expires_at" = .ok env.expiresAt.value :=
    wireI64_ok rfl (inI64_time _)
  have htarget : wireStr (toWire env) "target" = .ok env.target := wireStr_ok rfl
  have hread : wireI64 (toWire env) "expected_benefit_msat" = .ok env.expectedBenefitMsat :=
    wireI64_ok rfl hbenefit
  have hcost : wireI64 (toWire env) "max_cost_msat" = .ok env.maxCostMsat.value :=
    wireI64_ok rfl (inI64_msat _)
  have hcapital : wireI64 (toWire env) "capital_committed_msat" =
      .ok env.capitalCommittedMsat.value := wireI64_ok rfl (inI64_msat _)
  have hconfidence : wireI64 (toWire env) "confidence_micro" = .ok env.confidenceMicro.value :=
    wireI64_ok rfl (inI64_micro _)
  have hcodes : wireStrArray (toWire env) "reason_codes" = .ok env.reasonCodes :=
    wireStrArray_ok rfl
  have hpreconditions : wireStrArray (toWire env) "preconditions" = .ok env.preconditions :=
    wireStrArray_ok rfl
  have hbucket : wireStr (toWire env) "budget_bucket" = .ok env.budgetBucket := wireStr_ok rfl
  have horigin : wireStr (toWire env) "origin_policy" = .ok env.originPolicy := wireStr_ok rfl
  have hreversible : wireBool (toWire env) "reversible" = .ok env.reversible := wireBool_ok rfl
  simp only [fromWire, checkSchema_toWire, hamount, hexplanation, hpriority, hid, htype, hkey,
    hsnapshot, hcreated, hexpires, htarget, hread, hcost, hcapital, hconfidence, hcodes,
    hpreconditions, hbucket, horigin, hreversible, IntentId.new_text, UnixTime.new_value,
    Msat.new_value, Micro.new_value, knownType_wire, ok_bind]
  have hvalid : env.validate = .ok () := validate_ok_iff.mpr h
  simp only [hvalid]
  rfl

/-- What the decoder accepts meets the rules, and its benefit is one of the checked range. -/
theorem valid_of_fromWire {env : FullEnvelope} (h : fromWire d = .ok env) :
    Valid env ∧ InI64 env.expectedBenefitMsat := by
  simp only [fromWire, bind_eq_ok] at h
  obtain ⟨_, -, _, -, _, -, _, -, _, -, _, -, _, -, _, -, _, -, _, -, _, -, benefit, hbenefit,
    _, -, _, -, _, -, _, -, _, -, _, -, _, -, _, -, _, -, _, hvalid, henv⟩ := h
  obtain rfl := Except.ok.inj henv
  exact ⟨validate_ok_iff.mp hvalid, wireI64_bounds hbenefit⟩

end RoundTrip

section Derived

variable [Sha256] [DebugText]

/-- The wire form brings back every envelope of make_intent, whose benefit is an i64, and what
the decoder accepts is valid and comes back as well. -/
theorem wire_round_trip :
    (∀ env : FullEnvelope, InI64 env.expectedBenefitMsat →
      (∃ fields, makeIntent fields = .ok env) → fromWire (toWire env) = .ok env) ∧
    (∀ (d : Json) (env : FullEnvelope), fromWire d = .ok env →
      Valid env ∧ fromWire (toWire env) = .ok env) := by
  constructor
  · rintro env hbenefit ⟨fields, hmade⟩
    exact fromWire_toWire (validate_ok_iff.mp (makeIntent_key hmade).2.2) hbenefit
  · intro d env h
    obtain ⟨hvalid, hbenefit⟩ := valid_of_fromWire h
    exact ⟨hvalid, fromWire_toWire hvalid hbenefit⟩

end Derived

open Arbiter

/-- A rebalance as it is stored and replayed. -/
theorem rebalance_round_trip :
    @fromWire plainDebug (toWire rebalanceProposal) = .ok rebalanceProposal ∧
      Valid rebalanceProposal := by
  have hback : @fromWire plainDebug (toWire rebalanceProposal) = .ok rebalanceProposal :=
    (@wire_round_trip knownDigests plainDebug).1 _ (by decide) rebalanceProposal_made
  exact ⟨hback, ((@wire_round_trip knownDigests plainDebug).2 _ _ hback).1⟩

end IntentWire
