import RevenueOps.FallibleState
import RevenueOps.PeerPolicies

/-! A fee change decided without a broadcast: the clamps, the parameters of the setchannel call it
would make, and the executor that records them. -/
namespace FeeCycle

open FallibleState JsonValue PeerPolicies

abbrev DecisionInputError := String

structure FeeCfgSnapshot where
  minFeePpm : ℤ
  maxFeePpm : ℤ
  minFeePpmSaturated : ℤ
  feeInterval : ℤ
  flowInterval : ℤ
  htlcCongestionThreshold : Float
  marketFeeMode : String
  drainFeeDiscountMax : Float
  highLiquidityThreshold : Float
  feeProfile : String
  baseFeeMsat : ℤ
  enableVegasReflex : Bool
  enableDynamicHtlcmax : Json
  htlcmaxSourcePct : Float
  htlcmaxSinkPct : Float
  htlcmaxBalancedPct : Float
  paused : Bool
  nodeDrainBiasEnabled : Bool
  nodeDrainBiasMax : Float
  receivableRatioTarget : Float
  receivableRatioFloor : Float
  econGovernorFeesEnabled : Bool

def FeeCfgSnapshot.default : FeeCfgSnapshot where
  minFeePpm := 10
  maxFeePpm := 2000
  minFeePpmSaturated := 0
  feeInterval := 1800
  flowInterval := 3600
  htlcCongestionThreshold := 0.8
  marketFeeMode := "undercut"
  drainFeeDiscountMax := 0.0
  highLiquidityThreshold := 0.7
  feeProfile := "active"
  baseFeeMsat := 0
  enableVegasReflex := true
  enableDynamicHtlcmax := .bool false
  htlcmaxSourcePct := 0.5
  htlcmaxSinkPct := 0.25
  htlcmaxBalancedPct := 0.45
  paused := false
  nodeDrainBiasEnabled := false
  nodeDrainBiasMax := 0.3
  receivableRatioTarget := 0.30
  receivableRatioFloor := 0.20
  econGovernorFeesEnabled := false

inductive FeeReasonCode where
  | policyPassive
  | policyStatic
  | dtsPidSample
  | zeroFeeProbe
  | zeroFeeProbeSuccess
  | lowFeeExploration
  | lowFeeExplorationSuccess
  | congestion
  | gossipRefresh
  | skipSleeping
  | skipWaitingTime
  | skipWaitingForwards
  | skipFeeUnchanged
  deriving DecidableEq, Repr

def FeeReasonCode.asStr : FeeReasonCode → String
  | policyPassive => "policy_passive"
  | policyStatic => "policy_static"
  | dtsPidSample => "dts_pid_sample"
  | zeroFeeProbe => "zero_fee_probe"
  | zeroFeeProbeSuccess => "zero_fee_probe_success"
  | lowFeeExploration => "low_fee_exploration"
  | lowFeeExplorationSuccess => "low_fee_exploration_success"
  | congestion => "congestion"
  | gossipRefresh => "gossip_refresh"
  | skipSleeping => "skip_sleeping"
  | skipWaitingTime => "skip_waiting_time"
  | skipWaitingForwards => "skip_waiting_forwards"
  | skipFeeUnchanged => "skip_fee_unchanged"

section Decision

def absMinFeePpm : ℤ := 0
def absMaxFeePpm : ℤ := 100000

structure SetFeeRequest where
  channelId : String
  feePpm : ℤ
  enforceLimits : Bool
  effectiveMinFeePpm : Option ℤ
  htlcminMsat : Option ℤ
  htlcmaxMsat : Option ℤ
  baseFeeMsat : ℤ

structure SetFeeDecision where
  success : Bool
  clampedFeePpm : ℤ
  message : String
  clampLog : Option String

/-- The lower economic limit. The class-aware floor may lower it and never raises it. -/
def econMinFeePpm (cfg : FeeCfgSnapshot) (effectiveMinFeePpm : Option ℤ) : ℤ :=
  match effectiveMinFeePpm with
  | some eff => max absMinFeePpm (min eff cfg.minFeePpm)
  | none => cfg.minFeePpm

/-- The absolute clamp always applies, the economic one unless the request waives it. -/
def clampFee (cfg : FeeCfgSnapshot) (req : SetFeeRequest) (requested : ℤ) : ℤ :=
  let feePpm := max absMinFeePpm (min requested absMaxFeePpm)
  if req.enforceLimits then
    max (econMinFeePpm cfg req.effectiveMinFeePpm) (min cfg.maxFeePpm feePpm)
  else feePpm

def clampLog (cfg : FeeCfgSnapshot) (req : SetFeeRequest) (original feePpm : ℤ) : Option String :=
  if feePpm ≠ original then
    let note :=
      if req.enforceLimits then
        "(limits: " ++ toString (econMinFeePpm cfg req.effectiveMinFeePpm) ++ "-" ++
          toString cfg.maxFeePpm ++ " PPM)"
      else
        "(absolute: " ++ toString absMinFeePpm ++ "-" ++ toString absMaxFeePpm ++
          " PPM; economic limits bypassed)"
    some ("FEE_LIMIT: Clamped fee for " ++ String.ofList (req.channelId.toList.take 16) ++
      "... from " ++ toString original ++ " to " ++ toString feePpm ++ " " ++ note)
  else none

def decideSetChannelFee (req : SetFeeRequest) (cfg : FeeCfgSnapshot) (policy : Option PeerPolicy) :
    SetFeeDecision :=
  let decided (requested : ℤ) : SetFeeDecision :=
    let feePpm := clampFee cfg req requested
    ⟨true, feePpm, "Fee set to " ++ toString feePpm ++ " PPM", clampLog cfg req requested feePpm⟩
  match policy with
  | none => decided req.feePpm
  | some p =>
    match p.strategy with
    | .passive => ⟨false, req.feePpm, "policy_passive: fee change skipped", none⟩
    | .static => decided (p.feePpmTarget.getD req.feePpm)
    | .dynamic => decided req.feePpm

end Decision

section Execution

structure FeeExecutionRequest where
  decision : SetFeeRequest
  authorized : Bool
  oldFeePpm : ℤ
  expectedBaseFeeMsat : ℤ

def feeExecutionRequest (decision : SetFeeRequest) (oldFeePpm : ℤ)
    (baseFeeMsatOverride : Option ℤ) : FeeExecutionRequest :=
  ⟨decision, true, oldFeePpm, baseFeeMsatOverride.getD decision.baseFeeMsat⟩

structure SetChannelRequest where
  id : String
  feebase : ℕ
  feeppm : ℕ
  htlcmin : Option ℕ
  htlcmax : Option ℕ
  deriving DecidableEq, Repr

structure PreparedFeeAction where
  request : SetChannelRequest
  decision : SetFeeDecision
  oldFeePpm : ℤ
  expectedBaseFeeMsat : ℤ

def wireU64 (value : ℤ) (field : String) : Except DecisionInputError ℕ :=
  if 0 ≤ value then .ok value.toNat
  else .error ("setchannel " ++ field ++ " must be a nonnegative integer, got " ++ toString value)

def wireFeeppm (feePpm : ℤ) : Except DecisionInputError ℕ :=
  if 0 ≤ feePpm ∧ feePpm ≤ 4294967295 then .ok feePpm.toNat
  else .error ("setchannel feeppm must fit u32, got " ++ toString feePpm)

def wireOptional (value : Option ℤ) (field : String) : Except DecisionInputError (Option ℕ) :=
  match value with
  | none => .ok none
  | some v => (wireU64 v field).map some

def tryFromExecutionFee (request : FeeExecutionRequest) (feePpm : ℤ) :
    Except DecisionInputError SetChannelRequest := do
  if request.decision.channelId.isEmpty then throw "setchannel id must not be empty"
  let feebase ← wireU64 request.expectedBaseFeeMsat "feebase"
  let feeppm ← wireFeeppm feePpm
  let htlcmin ← wireOptional request.decision.htlcminMsat "htlcmin"
  let htlcmax ← wireOptional request.decision.htlcmaxMsat "htlcmax"
  return ⟨request.decision.channelId, feebase, feeppm, htlcmin, htlcmax⟩

/-- The recording executor: its answer, and the action it records for an authorized success. -/
def recordedExecution (request : FeeExecutionRequest) (cfg : FeeCfgSnapshot) :
    Except DecisionInputError (SetFeeDecision × Option PreparedFeeAction) :=
  let decision := decideSetChannelFee request.decision cfg none
  if request.authorized && decision.success then do
    let wire ← tryFromExecutionFee request decision.clampedFeePpm
    return (decision, some ⟨wire, decision, request.oldFeePpm, request.expectedBaseFeeMsat⟩)
  else return (decision, none)

structure GovernedTrace where
  authorized : Bool
  reasonCode : String
  intentId : String
  idempotencyKey : String

structure FeeAuthorizationRequest where
  channelId : String
  feePpm : ℤ
  oldFeePpm : Option ℤ
  reason : String
  reasonCode : Option String
  now : ℤ

structure FeeAuthorizationResult where
  authorized : Bool
  reasonCode : String
  trace : Option GovernedTrace

end Execution

section Laws

variable {cfg : FeeCfgSnapshot} {req : SetFeeRequest}

theorem decideSetChannelFee_none :
    decideSetChannelFee req cfg none =
      ⟨true, clampFee cfg req req.feePpm, "Fee set to " ++ toString (clampFee cfg req req.feePpm) ++
        " PPM", clampLog cfg req req.feePpm (clampFee cfg req req.feePpm)⟩ := rfl

theorem econMin_le (hmin : 0 ≤ cfg.minFeePpm) (effectiveMin : Option ℤ) :
    econMinFeePpm cfg effectiveMin ≤ cfg.minFeePpm := by
  unfold econMinFeePpm absMinFeePpm
  cases effectiveMin with
  | none => simp
  | some eff => simp only []; omega

/-- An enforced clamp ends inside the limits whatever was requested. -/
theorem clampFee_bounds (hmin : 0 ≤ cfg.minFeePpm) (hle : cfg.minFeePpm ≤ cfg.maxFeePpm)
    (henforce : req.enforceLimits = true) (requested : ℤ) :
    econMinFeePpm cfg req.effectiveMinFeePpm ≤ clampFee cfg req requested ∧
      clampFee cfg req requested ≤ cfg.maxFeePpm := by
  have hecon := econMin_le hmin req.effectiveMinFeePpm
  unfold clampFee
  rw [if_pos henforce]
  omega

theorem wireFeeppm_ok {feePpm : ℤ} {n : ℕ} (h : wireFeeppm feePpm = .ok n) : (n : ℤ) = feePpm := by
  unfold wireFeeppm at h
  split at h
  · rename_i hrange
    cases h
    exact Int.toNat_of_nonneg hrange.1
  · cases h

theorem tryFromExecutionFee_ok {request : FeeExecutionRequest} {feePpm : ℤ}
    {wire : SetChannelRequest} (h : tryFromExecutionFee request feePpm = .ok wire) :
    wire.id = request.decision.channelId ∧ (wire.feeppm : ℤ) = feePpm := by
  unfold tryFromExecutionFee at h
  split at h
  · cases h
  · obtain ⟨feebase, -, h⟩ := except_bind_eq_ok h
    obtain ⟨feeppm, hfeeppm, h⟩ := except_bind_eq_ok h
    obtain ⟨htlcmin, -, h⟩ := except_bind_eq_ok h
    obtain ⟨htlcmax, -, h⟩ := except_bind_eq_ok h
    cases h
    exact ⟨rfl, wireFeeppm_ok hfeeppm⟩

/-- An authorized success is recorded at the clamped fee, and nothing else is recorded. -/
theorem recordedExecution_ok {request : FeeExecutionRequest} {decision : SetFeeDecision}
    {action : Option PreparedFeeAction}
    (h : recordedExecution request cfg = .ok (decision, action)) :
    decision = decideSetChannelFee request.decision cfg none ∧
      ((request.authorized && decision.success) = false ∧ action = none ∨
        (request.authorized && decision.success) = true ∧ ∃ a, action = some a ∧
          a.request.id = request.decision.channelId ∧
          (a.request.feeppm : ℤ) = decision.clampedFeePpm) := by
  unfold recordedExecution at h
  dsimp only at h
  split at h
  · rename_i hgo
    obtain ⟨wire, hwire, h⟩ := except_bind_eq_ok h
    cases h
    exact ⟨rfl, Or.inr ⟨hgo, _, rfl, tryFromExecutionFee_ok hwire⟩⟩
  · rename_i hstop
    cases h
    exact ⟨rfl, Or.inl ⟨by simpa using hstop, rfl⟩⟩

end Laws

end FeeCycle
