import RevenueOps.FeeCycle
import RevenueOps.FeeRunway
import RevenueOps.LearnedStateCodec

/-! How a channel's persisted row becomes the owner's state, from the rows that the Python store
left and from those that the owner wrote itself. -/
namespace FeeStateLoading

open Arithmetic PyJson FeeCycle
open Thompson (GaussianThompsonState gtsFromDict)
open Pid (PidState pidFromDict Logarithms)
open FeeRunway (FeeStateRow)

structure FeeStrategyRow where
  channelId : String
  lastRevenueRate : Float
  lastFeePpm : ℤ
  trendDirection : ℤ
  stepPpm : ℤ
  consecutiveSameDirection : ℤ
  lastUpdate : ℤ
  lastBroadcastFeePpm : ℤ
  isSleeping : Bool
  sleepUntil : ℤ
  stableCycles : ℤ
  forwardCountSinceUpdate : ℤ
  lastVolumeSats : ℤ
  lastState : String
  v2StateJson : String

def FeeStrategyRow.default : FeeStrategyRow where
  channelId := ""
  lastRevenueRate := 0.0
  lastFeePpm := 0
  trendDirection := 1
  stepPpm := 50
  consecutiveSameDirection := 0
  lastUpdate := 0
  lastBroadcastFeePpm := 0
  isSleeping := false
  sleepUntil := 0
  stableCycles := 0
  forwardCountSinceUpdate := 0
  lastVolumeSats := 0
  lastState := "balanced"
  v2StateJson := "\x7b\x7d"

section Entries

/-- dict.setdefault: an entry that is there stays. -/
def objSetdefault (entries : List (String × OValue)) (key : String) (default : OValue) :
    List (String × OValue) :=
  if entries.any fun e => e.1 = key then entries else entries ++ [(key, default)]

/-- The first entry of the key gets the value; a new key goes to the end. -/
def objSet (key : String) (value : OValue) : List (String × OValue) → List (String × OValue)
  | [] => [(key, value)]
  | e :: entries =>
    if e.1 = key then (e.1, value) :: entries else e :: objSet key value entries

def objUpdate (entries updates : List (String × OValue)) : List (String × OValue) :=
  updates.foldl (fun entries e => objSet e.1 e.2 entries) entries

def truthy : OValue → Bool
  | .null => false
  | .bool b => b
  | .int i => i ≠ 0
  | .float f => f != 0.0
  | .str s => s ≠ ""
  | .arr items => !items.isEmpty
  | .obj entries => !entries.isEmpty

end Entries

section Envelope

structure SharedScalars where
  lastGossipRefresh : ℤ
  lastBroadcastAt : ℤ
  dynamicHtlcminBaselineMsat : Option ℤ

structure V2StateEnvelope where
  algorithmVersion : String
  feeState : OValue
  cycleState : OValue
  shared : SharedScalars
  raw : OValue

def extractSharedScalars (raw : OValue) (row : FeeStrategyRow) : SharedScalars where
  lastGossipRefresh := ((raw.get "last_gossip_refresh").bind OValue.asI64).getD 0
  lastBroadcastAt := ((raw.get "last_broadcast_at").bind OValue.asI64).getD row.lastUpdate
  dynamicHtlcminBaselineMsat := (raw.get "dynamic_htlcmin_baseline_msat").bind OValue.asI64

def flatKeys : List String :=
  ["algorithm_version", "thompson_state", "last_vegas_multiplier", "last_gossip_refresh",
    "last_broadcast_at", "pid_state", "dynamic_htlcmin_baseline_msat"]

/-- The fee state is nested, or its keys lie flat in an old blob. -/
def feeStateEntries (raw : OValue) : List (String × OValue) :=
  match raw.get "fee_state" with
  | some (.obj entries) => entries
  | _ => flatKeys.filterMap fun k => (raw.get k).map fun v => (k, v)

def extractFeeStatePayload (raw : OValue) (row : FeeStrategyRow) : OValue :=
  let entries := feeStateEntries raw
  let entries := objSetdefault entries "algorithm_version" (.str "dts_pid_v1")
  let entries := objSetdefault entries "last_vegas_multiplier" (.float 1.0)
  let entries := objSetdefault entries "last_gossip_refresh"
    ((raw.get "last_gossip_refresh").getD (.int 0))
  let entries := objSetdefault entries "last_broadcast_at"
    ((raw.get "last_broadcast_at").getD (.int row.lastUpdate))
  let entries := objSetdefault entries "dynamic_htlcmin_baseline_msat"
    ((raw.get "dynamic_htlcmin_baseline_msat").getD .null)
  .obj entries

def extractCycleStatePayload (raw : OValue) (row : FeeStrategyRow) : OValue :=
  let flat : List (String × OValue) :=
    [("last_revenue_rate", .float row.lastRevenueRate), ("last_fee_ppm", .int row.lastFeePpm),
      ("trend_direction", .int row.trendDirection), ("step_ppm", .int row.stepPpm),
      ("last_update", .int row.lastUpdate),
      ("consecutive_same_direction", .int row.consecutiveSameDirection),
      ("is_sleeping", .bool row.isSleeping), ("sleep_until", .int row.sleepUntil),
      ("stable_cycles", .int row.stableCycles),
      ("last_broadcast_fee_ppm", .int row.lastBroadcastFeePpm), ("last_state", .str row.lastState),
      ("forward_count_since_update", .int row.forwardCountSinceUpdate),
      ("last_volume_sats", .int row.lastVolumeSats),
      ("last_gossip_refresh", (raw.get "last_gossip_refresh").getD (.int 0)),
      ("last_broadcast_at", (raw.get "last_broadcast_at").getD (.int row.lastUpdate)),
      ("dynamic_htlcmin_baseline_msat",
        (raw.get "dynamic_htlcmin_baseline_msat").getD .null)]
  match raw.get "cycle_state" with
  | some (.obj nested) => .obj (objUpdate flat nested)
  | _ => .obj flat

def rawOf (blob : String) : OValue :=
  if blob = "" then .obj []
  else
    match parse blob with
    | .ok v => v
    | .error _ => .obj []

/-- A blob that does not parse counts as an empty one. -/
def parseV2Blob (blob : String) (row : FeeStrategyRow) : V2StateEnvelope :=
  let raw := rawOf blob
  let feeState := extractFeeStatePayload raw row
  { algorithmVersion := ((feeState.get "algorithm_version").bind OValue.asStr).getD "dts_pid_v1"
    feeState := feeState
    cycleState := extractCycleStatePayload raw row
    shared := extractSharedScalars raw row
    raw := raw }

end Envelope

section Load

variable [F64Functions Float] [Logarithms Float]

abbrev LearnedFeeState := ChannelFeeState (GaussianThompsonState Float) (PidState Float)

def feeStateKnownVersions : List String := ["thompson_aimd_v1", "dts_pid_v1"]

/-- The posterior of an unknown version is discarded; the controller terms are not. -/
def loadFeeState (env : V2StateEnvelope) (row : FeeStrategyRow) : LearnedFeeState :=
  let d := env.feeState
  let version := (d.get "algorithm_version").bind OValue.asStr
  let known := (version.map feeStateKnownVersions.contains).getD false
  { thompson := if known then gtsFromDict ((d.get "thompson_state").getD (.obj [])) else .default
    lastRevenueRate := row.lastRevenueRate
    lastFeePpm := row.lastFeePpm
    lastBroadcastFeePpm := row.lastBroadcastFeePpm
    lastUpdate := row.lastUpdate
    lastBroadcastAt := ((d.get "last_broadcast_at").bind OValue.asI64).getD row.lastUpdate
    lastState := row.lastState
    isSleeping := row.isSleeping
    sleepUntil := row.sleepUntil
    stableCycles := row.stableCycles
    forwardCountSinceUpdate := row.forwardCountSinceUpdate
    lastVolumeSats := row.lastVolumeSats
    algorithmVersion := if known then version.getD "migrated" else "dts_pid_v1"
    lastGossipRefresh := ((d.get "last_gossip_refresh").bind OValue.asI64).getD 0
    lastVegasMultiplier := ((d.get "last_vegas_multiplier").bind OValue.asF64).getD 1.0
    pid := pidFromDict ((d.get "pid_state").getD (.obj []))
    lastFeeProfile := ((d.get "last_fee_profile").bind OValue.asStr).getD "active"
    lastContextKey := ((d.get "last_context_key").bind OValue.asStr).getD ""
    lastTimeBucket := ((d.get "last_time_bucket").bind OValue.asStr).getD "normal"
    lastCorridorRole := ((d.get "last_corridor_role").bind OValue.asStr).getD "P"
    lastContextualSampleUsed := ((d.get "last_contextual_sample_used").map truthy).getD false
    dynamicHtlcminBaselineMsat := (d.get "dynamic_htlcmin_baseline_msat").bind OValue.asI64
    explicitShared := [] }

def feeInRange (fee : ℤ) : ℤ := max 0 (min fee absMaxFeePpm)

def loadCycleState (env : V2StateEnvelope) : ChannelCycleState :=
  let d := env.cycleState
  let getI64 (key : String) (default : ℤ) : ℤ := ((d.get key).bind OValue.asI64).getD default
  let getBool (key : String) : Bool := ((d.get key).map truthy).getD false
  { lastRevenueRate := ((d.get "last_revenue_rate").bind OValue.asF64).getD 0.0
    lastFeePpm := feeInRange (getI64 "last_fee_ppm" 0)
    trendDirection := getI64 "trend_direction" 1
    stepPpm := getI64 "step_ppm" 50
    lastUpdate := getI64 "last_update" 0
    lastBroadcastAt := getI64 "last_broadcast_at" (getI64 "last_update" 0)
    consecutiveSameDirection := getI64 "consecutive_same_direction" 0
    isSleeping := getBool "is_sleeping"
    sleepUntil := getI64 "sleep_until" 0
    stableCycles := getI64 "stable_cycles" 0
    lastBroadcastFeePpm := feeInRange (getI64 "last_broadcast_fee_ppm" 0)
    lastState := ((d.get "last_state").bind OValue.asStr).getD "balanced"
    forwardCountSinceUpdate := getI64 "forward_count_since_update" 0
    lastVolumeSats := getI64 "last_volume_sats" 0
    congestionActive := getBool "congestion_active"
    congestionQuietCycles := getI64 "congestion_quiet_cycles" 0
    congestionEntryFeePpm := feeInRange (getI64 "congestion_entry_fee_ppm" 0)
    pendingTargetPpm := feeInRange (getI64 "pending_target_ppm" 0)
    lastGossipRefresh := getI64 "last_gossip_refresh" 0
    dynamicHtlcminBaselineMsat := (d.get "dynamic_htlcmin_baseline_msat").bind OValue.asI64
    explicitShared := [] }

end Load

section Hydrate

variable [F64Functions Float] [Logarithms Float]

abbrev OwnerState := ControllerState (GaussianThompsonState Float) (PidState Float)

def loadRowFee (row : FeeStrategyRow) : LearnedFeeState :=
  loadFeeState (parseV2Blob row.v2StateJson row) row

def loadRowCycle (row : FeeStrategyRow) : ChannelCycleState :=
  loadCycleState (parseV2Blob row.v2StateJson row)

def epochOf (c : ChannelCycleState) : SkipGateEpoch := ⟨c.lastUpdate, c.isSleeping⟩

/-- The maps are built afresh; the process-lifetime fields stay. -/
def hydrateFromStrategyRows (s : OwnerState) (rows : List FeeStrategyRow) : OwnerState :=
  { s with
    cycleStates :=
      KeyedTable.Dict.insertAll .empty (rows.map fun r => (r.channelId, loadRowCycle r))
    feeStates := KeyedTable.Dict.insertAll .empty (rows.map fun r => (r.channelId, loadRowFee r))
    skipGatePrev := s.skipGateSeen
    skipGateSeen :=
      KeyedTable.Dict.insertAll .empty (rows.map fun r => (r.channelId, epochOf (loadRowCycle r))) }

/-- Why the owner refuses a row of its own. -/
inductive RowError where
  | corrupt (channelId : String) (e : ParseError)
  | missingEnvelope (channelId : String)

def hasObj (v : OValue) (key : String) : Bool := ((v.get key).bind OValue.asObj).isSome

def strategyRow (row : FeeStateRow) : Except RowError FeeStrategyRow :=
  match parse row.v2StateJson with
  | .error e => .error (.corrupt row.channelId e)
  | .ok v =>
    if hasObj v "fee_state" && hasObj v "cycle_state" then
      .ok { FeeStrategyRow.default with
        channelId := row.channelId, lastUpdate := row.lastUpdate, v2StateJson := row.v2StateJson }
    else .error (.missingEnvelope row.channelId)

/-- Every row is looked at before the state is touched. -/
def rehydrateFromRows (s : OwnerState) (rows : List FeeStateRow) : Except RowError OwnerState := do
  let strategyRows ← rows.mapM strategyRow
  .ok (setSkipGatesToOwned (hydrateFromStrategyRows s strategyRows))

end Hydrate

end FeeStateLoading
