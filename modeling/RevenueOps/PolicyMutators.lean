import RevenueOps.ConflictSerial
import RevenueOps.PeerPolicies

/-! The policy requests of the state mutation owner, as steps over the policy rows and the
per-peer change counts. A request reads through the reader, checks the limit under its
mutex, hands the full row to the writer and counts the change once the writer has answered. -/
namespace PolicyMutators

open JsonValue PeerPolicies ConflictSerial

inductive Cell where
  | row (peer : String)
  | stamps (peer : String)
  deriving DecidableEq

/-- A peer's stored row, or the clocks of its counted changes. -/
@[reducible] def CellValue : Cell → Type
  | .row _ => Option PolicyRow
  | .stamps _ => List ℤ

/-- The response, and the peers whose change was applied and counted. -/
structure Outcome where
  response : Json
  counted : List String

abbrev Work := Prog CellValue Outcome

abbrev Db := Store CellValue

inductive Action where
  | ignore
  | unignore
  | ban
  | unban
  | policySet
  | policyDelete
  | policyTag
  | policyUntag
  | policyBatch
  deriving DecidableEq, Repr

/-- The writer's answer to a write. One whose outcome stays unknown is not modelled. -/
inductive WriteAck where
  | applied
  | notAdmitted (detail : String)
  | storageFailure (detail : String)

/-- A request with what its run meets: the clock it reads, the reader's errors and the
answer of the writer. -/
structure Request where
  action : Action
  params : JsonMap
  now : ℤ
  readFault : String → Option String
  ack : WriteAck

def maxPolicyChangesPerMinute : ℕ := 10

def finish (response : Json) : Work := .done ⟨response, []⟩

section Steps

variable (r : Request)

def existingPolicy (peer : String) (k : PeerPolicy → Work) : Work :=
  .read (.row peer) fun row =>
    match r.readFault peer with
    | some e => finish (writeError "read_failed" e)
    | none => k (policyForPeer row peer r.now)

/-- Vec::retain on the stamps of the last minute. -/
def retain (now : ℤ) (stamps : List ℤ) : List ℤ := stamps.filter fun t => decide (now - 60 < t)

def rateLimitAllows (peer : String) (k : Bool → Work) : Work :=
  .update (.stamps peer) (retain r.now) fun (stamps : List ℤ) =>
    k (decide ((retain r.now stamps).length < maxPolicyChangesPerMinute))

def recordCompletedChange (peer : String) (k : Work) : Work :=
  .update (.stamps peer) (fun stamps : List ℤ => retain r.now stamps ++ [r.now]) fun _ => k

def rateLimitError (peer : String) : Json :=
  statusError ("Rate limited: max 10 changes/minute for " ++ peer12 peer ++ "...")

def policyRateLimitError (peer : String) : Json :=
  statusError ("Unexpected error: Rate limited: max 10 changes/minute for " ++ peer12 peer ++
    "...")

/-- A write that is not applied leaves the rows alone. -/
def completedWrite (applied : Work) : Work :=
  match r.ack with
  | .applied => applied
  | .notAdmitted detail => finish (writeError "not_admitted" detail)
  | .storageFailure detail => finish (writeError "storage_failure" detail)

def completeUpsert (peer : String) (write : PolicyRow) (success : Json) : Work :=
  completedWrite r (.store [⟨.row peer, some write⟩]
    (recordCompletedChange r peer (.done ⟨success, [peer]⟩)))

/-- A delete sees in its own transaction whether there was a row. -/
def deletePeerPolicy (peer : String) (deleted absent : Json) : Work :=
  completedWrite r (.update (.row peer) (fun _ => none) fun (row : Option PolicyRow) =>
    finish (if row.isSome then deleted else absent))

def limitedUpsert (peer : String) (limited : Json)
    (plan : PeerPolicy → PolicyRow × Json) : Work :=
  existingPolicy r peer fun existing =>
    rateLimitAllows r peer fun allowed =>
      if allowed then completeUpsert r peer (plan existing).1 (plan existing).2
      else finish limited

end Steps

section Mutators

variable [SerdeJson] [HostText] [RustText.UnicodeCase]

def peerParam (params : JsonMap) : String := ((params.lookup "peer_id").bind Json.asStr).getD ""

def peerId (params : JsonMap) : Except Json String :=
  let peer := peerParam params
  if isValidPeerId peer then .ok peer else .error (inBandError invalidPeerIdText)

def policyPeer (params : JsonMap) (usage : String) : Except Json String :=
  let peer := peerParam params
  if peer = "" then .error (inBandError usage)
  else if isValidPeerId peer then .ok peer
  else .error (inBandError invalidPeerIdText)

def ignoreSuccess (peer : String) (reason : Json) : Json :=
  .obj [("action", .str "ignore"),
    ("message", .str ("Peer " ++ peer ++ " set to passive strategy with rebalancing disabled.")),
    ("peer_id", .str peer), ("reason", reason), ("status", .str "success"),
    ("warning", .str "DEPRECATED: Use 'revenue-policy set' instead.")]

def unignoreSuccess (peer : String) : Json :=
  .obj [("action", .str "unignore"),
    ("message", .str ("Peer " ++ peer ++
      " reverted to default policy (dynamic strategy, rebalancing enabled).")),
    ("peer_id", .str peer), ("status", .str "success"),
    ("warning", .str "DEPRECATED: Use 'revenue-policy delete' instead.")]

def banSuccess (peer : String) (reason : Json) (tags : List String) : Json :=
  .obj [("action", .str "ban"),
    ("message",
      .str "Peer banned: no channel opens, no LN+ swaps, no fee/rebalance management. Existing channels and in-flight swaps are untouched."),
    ("peer_id", .str peer), ("reason", reason), ("status", .str "success"),
    ("tags", strArray tags)]

def unbanSuccess (peer : String) (tags : List String) : Json :=
  .obj [("action", .str "unban"), ("peer_id", .str peer), ("status", .str "success"),
    ("tags", strArray tags)]

def tagSuccess (peer : String) (tags : List String) : Json :=
  .obj [("peer_id", .str peer), ("status", .str "success"), ("tags", strArray tags)]

def setSuccess (policy : PeerPolicy) (peer : String) (now : ℤ) : Json :=
  .obj [("message", .str ("Policy updated for peer " ++ peer12 peer ++ "...")),
    ("policy", peerPolicyToJson policy now), ("status", .str "success")]

def deleteSuccess (peer : String) : Json :=
  .obj [("message",
    .str "Policy deleted, peer reverted to defaults (dynamic strategy, rebalancing enabled)"),
    ("peer_id", .str peer), ("status", .str "success")]

def deleteNoop : Json :=
  .obj [("message", .str "No policy existed for this peer"), ("status", .str "noop")]

def batchSuccess (policies : List PeerPolicy) (now : ℤ) : Json :=
  .obj [("message", .str ("Batch updated " ++ toString policies.length ++ " policies")),
    ("policies", .arr (policies.map fun p => peerPolicyToJson p now)),
    ("status", .str "success"), ("updated", .int policies.length)]

def ignore (r : Request) : Work :=
  match deprecatedPolicyWriteGate "revenue-ignore" r.params with
  | some denial => finish denial
  | none =>
    match peerId r.params with
    | .error e => finish e
    | .ok peer =>
      let reason := (r.params.lookup "reason").getD (.str "manual")
      limitedUpsert r peer (rateLimitError peer) fun existing =>
        (ignorePlan existing (pythonStr reason) r.now, ignoreSuccess peer reason)

def unignore (r : Request) : Work :=
  match deprecatedPolicyWriteGate "revenue-unignore" r.params with
  | some denial => finish denial
  | none =>
    match peerId r.params with
    | .error e => finish e
    | .ok peer => deletePeerPolicy r peer (unignoreSuccess peer) (unignoreSuccess peer)

def ban (r : Request) : Work :=
  match peerId r.params with
  | .error e => finish e
  | .ok peer =>
    let reason := (r.params.lookup "reason").getD (.str "operator")
    limitedUpsert r peer (rateLimitError peer) fun existing =>
      (banPlan existing r.now, banSuccess peer reason (banTags existing))

def unban (r : Request) : Work :=
  match peerId r.params with
  | .error e => finish e
  | .ok peer =>
    limitedUpsert r peer (rateLimitError peer) fun existing =>
      (unbanPlan existing r.now, unbanSuccess peer (unbanTags existing))

def mergedUpsert (r : Request) (existing : PeerPolicy) (u : PolicyUpdate)
    (success : PeerPolicy → Json) : Work :=
  match mergePolicy existing u r.now .single with
  | .error e => finish e
  | .ok policy =>
    rateLimitAllows r existing.peerId fun allowed =>
      if allowed then completeUpsert r existing.peerId (mergedRow policy) (success policy)
      else finish (policyRateLimitError existing.peerId)

/-- The set arm's fields, parsed before the clock is read. -/
def setUpdate (params : JsonMap) : Except Json PolicyUpdate := do
  let lo ← setArmFloat (params.lookup "fee_multiplier_min") "fee_multiplier_min"
  let hi ← setArmFloat (params.lookup "fee_multiplier_max") "fee_multiplier_max"
  let expires ← parseOptionalInt (params.lookup "expires_in_hours") "expires_in_hours"
  let fee ← setArmFeePpm (params.lookup "fee_ppm")
  return ⟨params.lookup "strategy", params.lookup "rebalance", fee, .keep, lo, hi, expires⟩

def policySet (r : Request) : Work :=
  match policyPeer r.params
      "Usage: revenue-policy set <peer_id> [strategy=X] [rebalance=X] [fee_ppm=N]" with
  | .error e => finish e
  | .ok peer =>
    match setUpdate r.params with
    | .error e => finish e
    | .ok u =>
      existingPolicy r peer fun existing =>
        mergedUpsert r existing u fun policy => setSuccess policy peer r.now

def policyDelete (r : Request) : Work :=
  match policyPeer r.params "Usage: revenue-policy delete <peer_id>" with
  | .error e => finish e
  | .ok peer => deletePeerPolicy r peer (deleteSuccess peer) deleteNoop

/-- The tags after the membership change, none when nothing changes. A tag that is no string
equals no stored one, so only its addition does anything. -/
def changedTags (add : Bool) (raw : Json) (tags : List String) : Option (List String) :=
  let tag := pythonStr raw
  if add then if tag ∈ tags then none else some (tags ++ [tag])
  else
    match raw with
    | .str _ => if tag ∈ tags then some (tags.filter fun t => t ≠ tag) else none
    | _ => none

def tagUpdate (tags : List String) : PolicyUpdate :=
  ⟨none, none, .keep, .set tags, .keep, .keep, none⟩

def policyTag (r : Request) (add : Bool) : Work :=
  let peer := peerParam r.params
  match decide (peer = ""), (r.params.lookup "tag").filter Json.isTruthy with
  | false, some raw =>
    if isValidPeerId peer then
      existingPolicy r peer fun existing =>
        match changedTags add raw existing.tags with
        | none => finish (tagSuccess peer existing.tags)
        | some tags =>
          mergedUpsert r existing (tagUpdate tags) fun policy => tagSuccess peer policy.tags
    else finish (inBandError invalidPeerIdText)
  | _, _ =>
    finish (inBandError ("Usage: revenue-policy " ++ (if add then "tag" else "untag") ++
      " <peer_id> <tag>"))

/-- A batch entry's fields, read raw, in the order of the handler. -/
def entryUpdate (entry : Json) (peer : String) : Except Json PolicyUpdate := do
  let fee ← batchFeePpm entry peer
  let lo ← batchFloat entry "fee_multiplier_min" peer
  let hi ← batchFloat entry "fee_multiplier_max" peer
  let expires ← batchExpires entry
  return ⟨entry.get "strategy", entry.get "rebalance_mode", fee, .raw (entry.get "tags"),
    lo, hi, expires⟩

def entryPeer (entry : Json) : String := ((entry.get "peer_id").bind Json.asStr).getD ""

/-- Every merged peer against the limit, before the write. -/
def checkLimits (r : Request) (k : Work) : List String → Work
  | [] => k
  | peer :: peers =>
    rateLimitAllows r peer fun allowed =>
      if allowed then checkLimits r k peers else finish (policyRateLimitError peer)

def recordAll (r : Request) (k : Work) : List String → Work
  | [] => k
  | peer :: peers => recordCompletedChange r peer (recordAll r k peers)

def commitBatch (r : Request) (policies : List PeerPolicy) : Work :=
  let peers := policies.map PeerPolicy.peerId
  checkLimits r
    (completedWrite r
      (.store (policies.map fun p => ⟨.row p.peerId, some (mergedRow p)⟩)
        (recordAll r (.done ⟨batchSuccess policies r.now, peers⟩) peers))) peers

/-- Every entry is read and merged before anything is written. -/
def batchEntries (r : Request) (policies : List PeerPolicy) : List Json → Work
  | [] => commitBatch r policies
  | entry :: entries =>
    let peer := entryPeer entry
    if isValidPeerId peer then
      existingPolicy r peer fun existing =>
        match entryUpdate entry peer with
        | .error e => finish e
        | .ok u =>
          match mergePolicy existing u r.now .batch with
          | .error e => finish e
          | .ok policy => batchEntries r (policies ++ [policy]) entries
    else finish (statusError invalidPeerIdText)

def batchUpdates (params : JsonMap) : Except Json (List Json) :=
  let parsed : Except Json Json := match (params.lookup "updates").getD (.str "[]") with
    | .str text =>
      match SerdeJson.fromStr text with
      | some v => .ok v
      | none => .error (inBandError ("Invalid JSON in updates: " ++ HostText.jsonError text))
    | v => .ok v
  match parsed with
  | .error e => .error e
  | .ok (.arr entries) => .ok entries
  | .ok _ => .error (inBandError "updates must be a JSON array")

def policyBatch (r : Request) : Work :=
  match batchUpdates r.params with
  | .error e => finish e
  | .ok entries =>
    if 100 < entries.length then
      finish (inBandError ("Batch too large: " ++ toString entries.length ++
        " entries, max 100"))
    else if entries = [] then finish (batchSuccess [] r.now)
    else batchEntries r [] entries

/-- CoreStateMutationOwner::handle on the policy actions. -/
def handle (r : Request) : Work :=
  match r.action with
  | .ignore => ignore r
  | .unignore => unignore r
  | .ban => ban r
  | .unban => unban r
  | .policySet => policySet r
  | .policyDelete => policyDelete r
  | .policyTag => policyTag r true
  | .policyUntag => policyTag r false
  | .policyBatch => policyBatch r

end Mutators

end PolicyMutators
