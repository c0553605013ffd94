import RevenueOps.JsonValue
import RevenueOps.RustNumber

/-! Peer policies: the stored row, the policy a reader makes of it, and the pure planning of
the mutators. A merge either yields the full row to write or the error text of the first
check that fails. -/
namespace PeerPolicies

open JsonValue

/-- Python's text of a float, the float a text spells, and serde_json's word on a bad text. -/
class HostText where
  pyRepr : Float → String
  parseF64 : String → Option Float
  jsonError : String → String

open HostText

section Policy

inductive FeeStrategy where
  | dynamic
  | static
  | passive
  deriving DecidableEq, Repr

def FeeStrategy.asValue : FeeStrategy → String
  | dynamic => "dynamic"
  | static => "static"
  | passive => "passive"

def FeeStrategy.fromValue : String → Option FeeStrategy
  | "dynamic" => some dynamic
  | "static" => some static
  | "passive" => some passive
  | _ => none

inductive RebalanceMode where
  | enabled
  | disabled
  | sourceOnly
  | sinkOnly
  deriving DecidableEq, Repr

def RebalanceMode.asValue : RebalanceMode → String
  | enabled => "enabled"
  | disabled => "disabled"
  | sourceOnly => "source_only"
  | sinkOnly => "sink_only"

def RebalanceMode.fromValue : String → Option RebalanceMode
  | "enabled" => some enabled
  | "disabled" => some disabled
  | "source_only" => some sourceOnly
  | "sink_only" => some sinkOnly
  | _ => none

structure PeerPolicy where
  peerId : String
  strategy : FeeStrategy
  rebalanceMode : RebalanceMode
  feePpmTarget : Option ℤ
  tags : List String
  updatedAt : ℤ
  feeMultiplierMin : Option Float
  feeMultiplierMax : Option Float
  expiresAt : Option ℤ

def PeerPolicy.defaultFor (peer : String) : PeerPolicy :=
  ⟨peer, .dynamic, .enabled, none, [], 0, none, none, none⟩

def isExpired (expiresAt : Option ℤ) (now : ℤ) : Bool :=
  match expiresAt with
  | none => false
  | some t => decide (t < now)

def isHexDigit (c : Char) : Bool :=
  ('0' ≤ c && c ≤ '9') || ('a' ≤ c && c ≤ 'f') || ('A' ≤ c && c ≤ 'F')

def isValidPeerId (s : String) : Bool := s.toList.length = 66 && s.toList.all isHexDigit

def peer12 (peer : String) : String := String.ofList (peer.toList.take 12)

end Policy

section Row

/-- A row of peer_policies under its key. The scalar cells are what the lossy column readers
make of them; the tags are the JSON the column's text spells, none when it spells none. -/
structure PolicyRow where
  strategy : String
  rebalanceMode : String
  feePpmTarget : Option ℤ
  tags : Option Json
  updatedAt : ℤ
  feeMultiplierMin : Option Float
  feeMultiplierMax : Option Float
  expiresAt : Option ℤ

/-- An element that is no string is dropped by itself, whatever is beside it. -/
def decodeTagsJson : Option Json → List String
  | some (.arr items) => items.filterMap Json.asStr
  | _ => []

def decodePolicyRow (peer : String) (row : PolicyRow) : PeerPolicy where
  peerId := peer
  strategy := (FeeStrategy.fromValue row.strategy).getD .dynamic
  rebalanceMode := (RebalanceMode.fromValue row.rebalanceMode).getD .enabled
  feePpmTarget := row.feePpmTarget
  tags := decodeTagsJson row.tags
  updatedAt := row.updatedAt
  feeMultiplierMin := row.feeMultiplierMin
  feeMultiplierMax := row.feeMultiplierMax
  expiresAt := row.expiresAt

/-- A missing row and an expired one read as the default policy. -/
def policyForPeer (row : Option PolicyRow) (peer : String) (now : ℤ) : PeerPolicy :=
  match row with
  | some r => if isExpired r.expiresAt now then .defaultFor peer else decodePolicyRow peer r
  | none => .defaultFor peer

/-- SQLite keeps no NaN: it becomes NULL. -/
def sqlReal (x : Option Float) : Option Float := x.filter fun v => !v.isNaN

def tagsColumn (tags : List String) : Option Json := some (.arr (tags.map .str))

theorem decodeTagsJson_tagsColumn (tags : List String) :
    decodeTagsJson (tagsColumn tags) = tags := by
  induction tags with
  | nil => rfl
  | cons t ts ih =>
    simp only [decodeTagsJson, tagsColumn, List.map_cons, List.filterMap_cons, Json.asStr] at ih ⊢
    rw [ih]

/-- The row an upsert leaves: the write's columns, stamped with the request's clock. -/
def writeFromPolicy (existing : PeerPolicy) (strategy rebalanceMode : String)
    (tags : List String) (expiresAt : Option ℤ) (now : ℤ) : PolicyRow where
  strategy := strategy
  rebalanceMode := rebalanceMode
  feePpmTarget := existing.feePpmTarget
  tags := tagsColumn tags
  updatedAt := now
  feeMultiplierMin := sqlReal existing.feeMultiplierMin
  feeMultiplierMax := sqlReal existing.feeMultiplierMax
  expiresAt := expiresAt

def bannedTag : String := "banned"

def ignorePlan (existing : PeerPolicy) (reason : String) (now : ℤ) : PolicyRow :=
  let tags := if reason = "ignored" then ["ignored"] else ["ignored", reason]
  writeFromPolicy existing "passive" "disabled" tags existing.expiresAt now

def banTags (existing : PeerPolicy) : List String :=
  if bannedTag ∈ existing.tags then existing.tags else existing.tags ++ [bannedTag]

def banPlan (existing : PeerPolicy) (now : ℤ) : PolicyRow :=
  writeFromPolicy existing "passive" "disabled" (banTags existing) none now

def unbanTags (existing : PeerPolicy) : List String :=
  existing.tags.filter fun tag => tag ≠ bannedTag

def unbanPlan (existing : PeerPolicy) (now : ℤ) : PolicyRow :=
  writeFromPolicy existing "dynamic" "enabled" (unbanTags existing) existing.expiresAt now

end Row

section Texts

variable [SerdeJson]

def strArray (items : List String) : Json := .arr (items.map .str)

def optInt : Option ℤ → Json
  | some n => .int n
  | none => .null

/-- A JSON number is finite; anything else is written as null. -/
def optFloat : Option Float → Json
  | some x => if x.isFinite then .float x else .null
  | none => .null

def peerPolicyToJson (p : PeerPolicy) (now : ℤ) : Json :=
  .obj [("expires_at", optInt p.expiresAt),
    ("fee_multiplier_max", optFloat p.feeMultiplierMax),
    ("fee_multiplier_min", optFloat p.feeMultiplierMin),
    ("fee_ppm_target", optInt p.feePpmTarget),
    ("is_expired", .bool (isExpired p.expiresAt now)),
    ("peer_id", .str p.peerId),
    ("rebalance_mode", .str p.rebalanceMode.asValue),
    ("strategy", .str p.strategy.asValue),
    ("tags", strArray p.tags),
    ("updated_at", .int p.updatedAt)]

def inBandError (message : String) : Json := .obj [("error", .str message)]

def statusError (message : String) : Json :=
  .obj [("error", .str message), ("status", .str "error")]

def writeError (code message : String) : Json :=
  .obj [("error", .obj [("code", .str code), ("message", .str message)]),
    ("status", .str "error")]

def invalidPeerIdText : String := "Invalid peer_id format: expected 66-character hex pubkey"

def pythonStr : Json → String
  | .str s => s
  | .null => "None"
  | .bool true => "True"
  | .bool false => "False"
  | v => SerdeJson.toString v

def overrideWords : List String := ["1", "true", "yes", "on"]

def overrideTruthy : Option Json → Bool
  | some (.bool b) => b
  | none => false
  | some .null => false
  | some (.str s) => decide ((RustText.trim s).toLower ∈ overrideWords)
  | some v => decide ((RustText.trim (SerdeJson.toString v)).toLower ∈ overrideWords)

def policyWriteOverride (params : JsonMap) : Bool :=
  overrideTruthy (params.lookup "internal") || overrideTruthy (params.lookup "admin")

/-- The deprecated aliases answer only under an override. -/
def deprecatedPolicyWriteGate (method : String) (params : JsonMap) : Option Json :=
  if policyWriteOverride params then none
  else some
    (inBandError
      (method ++
        " is deprecated for normal operator use. Use revenue-policy list/get/find/changes for diagnostics."))

end Texts

section Numbers

/-- python_int on a value that is no string; a string is parsed by the caller. -/
def pythonIntNumber : Json → Option ℤ
  | .bool b => some (if b then 1 else 0)
  | .int n => if -2 ^ 63 ≤ n ∧ n < 2 ^ 63 then some n else none
  | .float x =>
    if -9223372036854775808.0 ≤ x ∧ x < 9223372036854775808.0 then
      some (RustNumber.asI64 x)
    else none
  | _ => none

/-- What a caller asks of an optional field: leave it, empty it, or set it. -/
inductive FieldInput (α : Type) where
  | keep
  | clear
  | set (value : α)

def FieldInput.resolve {α : Type} : FieldInput α → Option α → Option α
  | keep, existing => existing
  | clear, _ => none
  | set v, _ => some v

variable [SerdeJson] [HostText] [RustText.UnicodeCase]

def emptyWords : List String := ["", "null", "none"]

def parseOptionalFloat (raw : Option Json) (field : String) : Except Json (Option Float) :=
  let err := .error (statusError ("Invalid " ++ field ++ ": expected float"))
  match raw with
  | none => .ok none
  | some .null => .ok none
  | some (.str s) =>
    let t := RustText.toLowercase (RustText.trim s)
    if t ∈ emptyWords then .ok none
    else match parseF64 t with
      | some x => .ok (some x)
      | none => err
  | some (.int n) => .ok (some (RustNumber.asF64 n))
  | some (.float x) => .ok (some x)
  | some (.bool b) => .ok (some (if b then 1.0 else 0.0))
  | some _ => err

def parseOptionalInt (raw : Option Json) (field : String) : Except Json (Option ℤ) :=
  let err := .error (statusError ("Invalid " ++ field ++ ": expected integer"))
  match raw with
  | none => .ok none
  | some .null => .ok none
  | some (.str s) =>
    let t := RustText.toLowercase (RustText.trim s)
    if t ∈ emptyWords then .ok none
    else match RustText.parseI64 (RustText.trim t) with
      | some n => .ok (some n)
      | none => err
  | some v =>
    match pythonIntNumber v with
    | some n => .ok (some n)
    | none => err

def setArmFloat (raw : Option Json) (field : String) : Except Json (FieldInput Float) :=
  match parseOptionalFloat raw field with
  | .error e => .error e
  | .ok none => .ok .keep
  | .ok (some v) => .ok (.set v)

/-- The set arm's fee_ppm: a value that is no integer fails with its Python text. -/
def setArmFeePpm (raw : Option Json) : Except Json (FieldInput ℤ) :=
  match raw with
  | none => .ok .keep
  | some .null => .ok .keep
  | some (.bool b) => .ok (.set (if b then 1 else 0))
  | some v =>
    match v.asI64 with
    | some n => .ok (.set n)
    | none => .error (statusError
        ("fee_ppm_target must be a non-negative integer, got " ++ pythonStr v))

def batchFloat (entry : Json) (key peer : String) : Except Json (FieldInput Float) :=
  match entry.get key with
  | none => .ok .keep
  | some .null => .ok .clear
  | some (.bool b) => .ok (.set (if b then 1.0 else 0.0))
  | some (.int n) => .ok (.set (RustNumber.asF64 n))
  | some (.float x) => .ok (.set x)
  | some _ => .error (statusError (key ++ " must be >= 0.1 for peer " ++ peer12 peer ++ "..."))

def batchFeePpm (entry : Json) (peer : String) : Except Json (FieldInput ℤ) :=
  match entry.get "fee_ppm_target" with
  | none => .ok .keep
  | some .null => .ok .clear
  | some (.bool b) => .ok (.set (if b then 1 else 0))
  | some v =>
    match v.asI64 with
    | some n => .ok (.set n)
    | none => .error (statusError
        ("fee_ppm_target must be a non-negative integer for peer " ++ peer12 peer ++ "..."))

/-- The Python type an order comparison with an int names. -/
def comparisonType : Json → String
  | .str _ => "str"
  | .bool _ => "bool"
  | .arr _ => "list"
  | .obj _ => "dict"
  | _ => "float"

def batchExpires (entry : Json) : Except Json (Option ℤ) :=
  match entry.get "expires_in_hours" with
  | none => .ok none
  | some .null => .ok none
  | some v =>
    match v.asI64 with
    | some n => .ok (some n)
    | none =>
        .error (statusError
          ("Unexpected error: '<=' not supported between instances of                              '" ++
        comparisonType v ++ "' and 'int'"))

end Numbers

section Merge

variable [SerdeJson] [HostText] [RustText.UnicodeCase]

/-- The two write surfaces word their errors differently. -/
inductive PolicyErrStyle where
  | single
  | batch
  deriving DecidableEq

/-- Where the tags come from: kept, a list already built, or a batch entry's own value. -/
inductive TagsInput where
  | keep
  | set (tags : List String)
  | raw (value : Option Json)

structure PolicyUpdate where
  strategy : Option Json
  rebalance : Option Json
  feePpm : FieldInput ℤ
  tags : TagsInput
  multMin : FieldInput Float
  multMax : FieldInput Float
  expiresInHours : Option ℤ

def suffix (style : PolicyErrStyle) (peer : String) : String :=
  match style with
  | .single => ""
  | .batch => " for peer " ++ peer12 peer ++ "..."

def mergeStrategy (existing : PeerPolicy) (raw : Option Json) (style : PolicyErrStyle) :
    Except Json FeeStrategy :=
  match raw with
  | none => .ok existing.strategy
  | some .null => .ok existing.strategy
  | some v =>
    match FeeStrategy.fromValue (RustText.toLowercase (pythonStr v)) with
    | some strategy => .ok strategy
    | none => .error (statusError (match style with
      | .single => "Invalid strategy '" ++ pythonStr v ++
          "'. Valid: ['dynamic', 'static', 'passive']"
      | .batch => "Invalid strategy '" ++ pythonStr v ++ "'" ++ suffix style existing.peerId))

def mergeRebalance (existing : PeerPolicy) (raw : Option Json) (style : PolicyErrStyle) :
    Except Json RebalanceMode :=
  match raw with
  | none => .ok existing.rebalanceMode
  | some .null => .ok existing.rebalanceMode
  | some v =>
    match RebalanceMode.fromValue (RustText.toLowercase (pythonStr v)) with
    | some mode => .ok mode
    | none => .error (statusError (match style with
      | .single => "Invalid rebalance_mode '" ++ pythonStr v ++
          "'. Valid: ['enabled', 'disabled', 'source_only', 'sink_only']"
      | .batch =>
        "Invalid rebalance_mode '" ++ pythonStr v ++ "'" ++ suffix style existing.peerId))

def checkFeePpm (fee : Option ℤ) (peer : String) (style : PolicyErrStyle) : Except Json Unit :=
  match fee with
  | none => .ok ()
  | some fee =>
    if fee < 0 then
      .error (statusError (match style with
        | .single => "fee_ppm_target must be a non-negative integer, got " ++ toString fee
        | .batch => "fee_ppm_target must be a non-negative integer" ++ suffix style peer))
    else if 100000 < fee then
      .error (statusError ("fee_ppm_target cannot exceed 100000 PPM" ++ suffix style peer))
    else .ok ()

def mergeTags (existing : PeerPolicy) (input : TagsInput) (style : PolicyErrStyle) :
    Except Json (List String) :=
  match input with
  | .keep => .ok existing.tags
  | .set tags => .ok tags
  | .raw none => .ok existing.tags
  | .raw (some (.arr items)) => .ok (items.map pythonStr)
  | .raw (some _) =>
    .error (statusError ("tags must be a list of strings" ++ suffix style existing.peerId))

def checkMultiplier (value : Option Float) (name peer : String) (style : PolicyErrStyle) :
    Except Json Unit :=
  match value with
  | none => .ok ()
  | some v =>
    if v < 0.1 then .error (statusError (name ++ " must be >= 0.1" ++ suffix style peer))
    else if 5.0 < v then .error (statusError (name ++ " must be <= 5.0" ++ suffix style peer))
    else .ok ()

def checkMultiplierOrder (lo hi : Option Float) (peer : String) (style : PolicyErrStyle) :
    Except Json Unit :=
  match lo, hi with
  | some lo, some hi =>
    if hi < lo then
      .error (statusError ("fee_multiplier_min (" ++ pyRepr lo ++
        ") cannot exceed fee_multiplier_max (" ++ pyRepr hi ++ ")" ++ suffix style peer))
    else .ok ()
  | _, _ => .ok ()

def mergeExpiry (existing : Option ℤ) (hours : Option ℤ) (now : ℤ) (peer : String)
    (style : PolicyErrStyle) : Except Json (Option ℤ) :=
  match hours with
  | none => .ok existing
  | some hours =>
    if hours ≤ 0 then .ok none
    else if 720 < hours then
      .error (statusError (match style with
        | .single => "expires_in_hours cannot exceed 720 (30 days)"
        | .batch => "expires_in_hours exceeds 720" ++ suffix style peer))
    else .ok (some (now + hours * 3600))

/-- The checks in Python's order; the first that fails gives the error. -/
def mergePolicy (existing : PeerPolicy) (u : PolicyUpdate) (now : ℤ) (style : PolicyErrStyle) :
    Except Json PeerPolicy := do
  let strategy ← mergeStrategy existing u.strategy style
  let mode ← mergeRebalance existing u.rebalance style
  let fee := u.feePpm.resolve existing.feePpmTarget
  checkFeePpm fee existing.peerId style
  if strategy = .static ∧ fee = none then
    throw (statusError ("strategy=static requires fee_ppm_target" ++
      suffix style existing.peerId))
  let tags ← mergeTags existing u.tags style
  let lo := u.multMin.resolve existing.feeMultiplierMin
  let hi := u.multMax.resolve existing.feeMultiplierMax
  checkMultiplier lo "fee_multiplier_min" existing.peerId style
  checkMultiplier hi "fee_multiplier_max" existing.peerId style
  checkMultiplierOrder lo hi existing.peerId style
  let expires ← mergeExpiry existing.expiresAt u.expiresInHours now existing.peerId style
  return ⟨existing.peerId, strategy, mode, fee, tags, now, lo, hi, expires⟩

def mergedRow (p : PeerPolicy) : PolicyRow where
  strategy := p.strategy.asValue
  rebalanceMode := p.rebalanceMode.asValue
  feePpmTarget := p.feePpmTarget
  tags := tagsColumn p.tags
  updatedAt := p.updatedAt
  feeMultiplierMin := sqlReal p.feeMultiplierMin
  feeMultiplierMax := sqlReal p.feeMultiplierMax
  expiresAt := p.expiresAt

theorem mergePolicy_ok {existing : PeerPolicy} {u : PolicyUpdate} {now : ℤ}
    {style : PolicyErrStyle} {p : PeerPolicy} (h : mergePolicy existing u now style = .ok p) :
    p.peerId = existing.peerId ∧ mergeTags existing u.tags style = .ok p.tags := by
  unfold mergePolicy at h
  simp only [bind, Except.bind, pure, Except.pure] at h
  repeat' split at h
  all_goals cases h
  all_goals exact ⟨rfl, by assumption⟩

end Merge

end PeerPolicies
