import RevenueOps.FeeCycleState
import RevenueOps.FeeOwner
import RevenueOps.ThompsonState

/-! The first fee of a channel that opened: the precedence of its policy, the draw from a throwaway
posterior, the durable seed of a gossip prior, and the governed change. Rows that exist already
enter as options; a row that is not returned stays as it is. -/
namespace InitialFee

open FeeCycle PeerPolicies RustNumber Thompson
open FeeOwner (InitialFeeAction InitialFeeDecision PreparedInitialFee)

section Model

structure FeePrior where
  mean : ℤ
  std : ℤ
  source : String

/-- The frozen evidence of one opening. The last but one field is the part of the configuration
that no cycle reads. -/
structure InitialFeeInput where
  channel : ChannelInfo
  peerId : String
  policy : PeerPolicy
  cfg : FeeCfgSnapshot
  thompsonPriorStdFee : ℤ
  prior : Option FeePrior

abbrev Prepared := PreparedInitialFee InitialFeeInput
abbrev FeeRow (π : Type) := ChannelFeeState (GaussianThompsonState Float) π
abbrev Decision (π : Type) := InitialFeeDecision ChannelCycleState (FeeRow π)

/-- The governor, the draw from a posterior between two limits, and a fresh PID block. -/
structure Deps (π : Type) where
  authorize : FeeAuthorizationRequest → Except DecisionInputError FeeAuthorizationResult
  sampleFee : GaussianThompsonState Float → ℤ → ℤ → ℤ
  defaultPid : π

def initialPriorNudgeWeight : Float := 0.3

variable {π : Type} (D : Deps π)

def Deps.freshFee : FeeRow π := .default .default D.defaultPid

structure Candidate (π : Type) where
  targetFeePpm : ℤ
  reason : String
  reasonCode : String
  feeState : Option (FeeRow π)
  cycleState : Option ChannelCycleState

def seedPrior (prior : FeePrior) (now : ℤ) (t : GaussianThompsonState Float) :
    GaussianThompsonState Float :=
  recordPosteriorNudge { t with priorMeanFee := asF64 prior.mean, priorStdFee := asF64 prior.std }
    (asF64 prior.mean) initialPriorNudgeWeight now

/-- The throwaway state of the draw; the persistent one is never sampled. -/
def throwaway (p : Prepared) : GaussianThompsonState Float :=
  let fresh : GaussianThompsonState Float :=
    { GaussianThompsonState.default with priorStdFee := asF64 p.input.thompsonPriorStdFee }
  match p.input.prior with
  | some prior => { fresh with priorMeanFee := asF64 prior.mean, priorStdFee := asF64 prior.std }
  | none => fresh

def openingReason : String := "Initial fee: channel open"
def openingReasonCode : String := "channel_open"

def Deps.sampledFee (p : Prepared) : ℤ :=
  D.sampleFee (throwaway p) p.input.cfg.minFeePpm p.input.cfg.maxFeePpm

/-- The dynamic arm. Without a prior it hands on no rows, whether rows exist or not. -/
def dynamicInitialFee (p : Prepared) (existingFee : Option (FeeRow π))
    (existingCycle : Option ChannelCycleState) : Candidate π :=
  let seeded : Option (FeeRow π) × Option ChannelCycleState :=
    match p.input.prior with
    | some prior =>
      let fee := existingFee.getD D.freshFee
      (some { fee with thompson := seedPrior prior p.eventTs fee.thompson },
        some (existingCycle.getD .default))
    | none => (none, none)
  ⟨D.sampledFee p, openingReason, openingReasonCode, seeded.1, seeded.2⟩

def setFeeRequest (p : Prepared) (targetFeePpm : ℤ) : SetFeeRequest :=
  ⟨p.input.channel.channelId, targetFeePpm, true, none, none, none, p.input.cfg.baseFeeMsat⟩

def authRequest (p : Prepared) (targetFeePpm : ℤ) (reason reasonCode : String) :
    FeeAuthorizationRequest where
  channelId := p.input.channel.channelId
  feePpm := (decideSetChannelFee (setFeeRequest p targetFeePpm) p.input.cfg none).clampedFeePpm
  oldFeePpm := some p.input.channel.feeProportionalMillionths
  reason := reason
  reasonCode := some reasonCode
  now := p.eventTs

def Deps.authorized (p : Prepared) (targetFeePpm : ℤ) (reason reasonCode : String) :
    FeeAuthorizationResult :=
  match D.authorize (authRequest p targetFeePpm reason reasonCode) with
  | .ok auth => auth
  | .error e => ⟨false, "internal_error (" ++ e ++ ")", none⟩

def execRequest (p : Prepared) (targetFeePpm : ℤ) (authorized : Bool) : FeeExecutionRequest :=
  ⟨setFeeRequest p targetFeePpm, authorized, p.input.channel.feeProportionalMillionths,
    p.input.cfg.baseFeeMsat⟩

def recordedAction (a : PreparedFeeAction) : InitialFeeAction :=
  ⟨a.oldFeePpm, a.decision.clampedFeePpm, a.expectedBaseFeeMsat, a.request.htlcmin.map Int.ofNat,
    a.request.htlcmax.map Int.ofNat, a.decision.message⟩

def governedTrace (t : GovernedTrace) : FeeOwner.GovernedTrace :=
  ⟨t.authorized, t.reasonCode, t.intentId, t.idempotencyKey⟩

def syncFee (f : FeeRow π) (feePpm now : ℤ) : FeeRow π :=
  { ({ f with lastFeePpm := feePpm, lastBroadcastFeePpm := feePpm } :
    FeeRow π).setLastBroadcastAt now
    with lastUpdate := now }

def syncCycle (c : ChannelCycleState) (feePpm now : ℤ) : ChannelCycleState :=
  { ({ c with lastFeePpm := feePpm, lastBroadcastFeePpm := feePpm } :
      ChannelCycleState).setLastBroadcastAt now with lastUpdate := now }

/-- The governed change. A candidate without rows is synchronized on default ones. -/
def finalizeInitialFee (p : Prepared) (c : Candidate π) : Decision π :=
  let auth := D.authorized p c.targetFeePpm c.reason c.reasonCode
  let trace := auth.trace.map governedTrace
  match recordedExecution (execRequest p c.targetFeePpm auth.authorized) p.input.cfg with
  | .error e =>
    ⟨c.feeState, c.cycleState, none, trace, .governorDenied ("internal_error (" ++ e ++ ")"),
      c.reasonCode⟩
  | .ok (decision, action) =>
    if !auth.authorized then
      ⟨c.feeState, c.cycleState, none, trace, .governorDenied auth.reasonCode, c.reasonCode⟩
    else
      ⟨some (syncFee (c.feeState.getD D.freshFee) decision.clampedFeePpm p.eventTs),
        some (syncCycle (c.cycleState.getD .default) decision.clampedFeePpm p.eventTs),
        action.map recordedAction, trace, .wouldBroadcast auth.reasonCode, c.reasonCode⟩

def decideInitialFee (p : Prepared) (existingFee : Option (FeeRow π))
    (existingCycle : Option ChannelCycleState) : Decision π :=
  match p.input.policy.strategy with
  | .passive => ⟨none, none, none, none, .passive, "policy_passive"⟩
  | .static =>
    match p.input.policy.feePpmTarget with
    | some target =>
      finalizeInitialFee D p
        ⟨target, "Initial fee: STATIC policy", "policy_static", existingFee, existingCycle⟩
    | none => finalizeInitialFee D p (dynamicInitialFee D p existingFee existingCycle)
  | .dynamic => finalizeInitialFee D p (dynamicInitialFee D p existingFee existingCycle)

end Model

section Rows

variable {π : Type}

/-- A row beside its last broadcast: the four synchronized fields are blanked, and the mark that
the time of the broadcast is explicit is set. -/
def learnedFee (f : FeeRow π) : FeeRow π :=
  { f with lastFeePpm := 0, lastBroadcastFeePpm := 0, lastBroadcastAt := 0, lastUpdate := 0
           explicitShared := f.explicitShared.insert .lastBroadcastAt }

def learnedCycle (c : ChannelCycleState) : ChannelCycleState :=
  { c with lastFeePpm := 0, lastBroadcastFeePpm := 0, lastBroadcastAt := 0, lastUpdate := 0
           explicitShared := c.explicitShared.insert .lastBroadcastAt }

@[simp] theorem learnedFee_syncFee (f : FeeRow π) (feePpm now : ℤ) :
    learnedFee (syncFee f feePpm now) = learnedFee f := by
  simp [learnedFee, syncFee, ChannelFeeState.setLastBroadcastAt]

@[simp] theorem syncFee_thompson (f : FeeRow π) (feePpm now : ℤ) :
    (syncFee f feePpm now).thompson = f.thompson := rfl

@[simp] theorem learnedCycle_syncCycle (c : ChannelCycleState) (feePpm now : ℤ) :
    learnedCycle (syncCycle c feePpm now) = learnedCycle c := by
  simp [learnedCycle, syncCycle, ChannelCycleState.setLastBroadcastAt]

/-- The policy left the fee to the sampler: a static one without a target does so too. -/
def DynamicArm (p : Prepared) : Prop :=
  p.input.policy.strategy = .dynamic ∨
    p.input.policy.strategy = .static ∧ p.input.policy.feePpmTarget = none

/-- A new prior and one recorded nudge; the posterior mean moves with the nudge, all else stays. -/
structure Seeded (prior : FeePrior) (now : ℤ) (t t' : GaussianThompsonState Float) : Prop where
  nudged : t' = recordPosteriorNudge
    { t with priorMeanFee := asF64 prior.mean, priorStdFee := asF64 prior.std }
    (asF64 prior.mean) initialPriorNudgeWeight now
  frame : t' = { t with
    priorMeanFee := asF64 prior.mean
    priorStdFee := asF64 prior.std
    posteriorBias := t'.posteriorBias
    posteriorMean := t'.posteriorMean
    posteriorMeanIsInt := t'.posteriorMeanIsInt }

def PriorOnly (p : Prepared) (t t' : GaussianThompsonState Float) : Prop :=
  (∀ prior, DynamicArm p → p.input.prior = some prior → Seeded prior p.eventTs t t') ∧
    (¬DynamicArm p ∨ p.input.prior = none → t' = t)

def Broadcasts (d : Decision π) : Prop := ∃ code, d.outcome = .wouldBroadcast code

/-- The rows that a decision returns for a channel with rows are those rows, but for the broadcast
when there is one and for the prior when there is one. -/
structure KeepsLearning (p : Prepared) (existingFee : Option (FeeRow π))
    (existingCycle : Option ChannelCycleState) (d : Decision π) : Prop where
  prior : ∀ f f', existingFee = some f → d.feeState = some f' →
    PriorOnly p f.thompson f'.thompson
  feeSynced : ∀ f f', existingFee = some f → d.feeState = some f' → Broadcasts d →
    learnedFee f' = learnedFee { f with thompson := f'.thompson }
  feeKept : ∀ f f', existingFee = some f → d.feeState = some f' → ¬Broadcasts d →
    f' = { f with thompson := f'.thompson }
  cycleSynced : ∀ c c', existingCycle = some c → d.cycleState = some c' → Broadcasts d →
    learnedCycle c' = learnedCycle c
  cycleKept : ∀ c c', existingCycle = some c → d.cycleState = some c' → ¬Broadcasts d → c' = c

end Rows

section Nudge

theorem recordPosteriorNudge_frame (t : GaussianThompsonState Float) (target weight : Float)
    (now : ℤ) :
    recordPosteriorNudge t target weight now = { t with
      posteriorBias := (recordPosteriorNudge t target weight now).posteriorBias
      posteriorMean := (recordPosteriorNudge t target weight now).posteriorMean
      posteriorMeanIsInt := (recordPosteriorNudge t target weight now).posteriorMeanIsInt } := by
  rw [recordPosteriorNudge]
  split
  · rfl
  · split
    · rfl
    · split
      · rfl
      · rw [blendPosteriorToward]
        split <;> rfl

theorem seeded_seedPrior (prior : FeePrior) (now : ℤ) (t : GaussianThompsonState Float) :
    Seeded prior now t (seedPrior prior now t) :=
  ⟨rfl, recordPosteriorNudge_frame _ _ _ _⟩

end Nudge

section Finalize

variable {π : Type} {D : Deps π} {p : Prepared} {c : Candidate π}

def clampedFee (p : Prepared) (targetFeePpm : ℤ) : ℤ :=
  clampFee p.input.cfg (setFeeRequest p targetFeePpm) targetFeePpm

def Broadcastable (p : Prepared) (targetFeePpm : ℤ) : Prop :=
  p.input.channel.channelId.isEmpty = false ∧ 0 ≤ p.input.cfg.baseFeeMsat ∧
    0 ≤ clampedFee p targetFeePpm ∧ clampedFee p targetFeePpm ≤ 4294967295

theorem tryFromExecutionFee_ok_iff (authorized : Bool) (target : ℤ) :
    (∃ wire,
      tryFromExecutionFee (execRequest p target authorized) (clampedFee p target) = .ok wire) ↔
      Broadcastable p target := by
  simp only [tryFromExecutionFee, execRequest, setFeeRequest, wireU64, wireFeeppm, wireOptional,
    Broadcastable]
  by_cases hid : p.input.channel.channelId.isEmpty = true
  · simp [hid, throw, throwThe, MonadExceptOf.throw, bind, Except.bind]
  · by_cases hbase : 0 ≤ p.input.cfg.baseFeeMsat
    · by_cases hfee : 0 ≤ clampedFee p target ∧ clampedFee p target ≤ 4294967295
      · simp [hid, hbase, hfee, bind, Except.bind, pure, Except.pure]
      · simp only [hid, hbase, hfee, bind, Except.bind, if_true, if_false]
        simp
    · simp [hid, hbase, bind, Except.bind]

def appliedDecision (p : Prepared) (targetFeePpm : ℤ) : SetFeeDecision :=
  decideSetChannelFee (setFeeRequest p targetFeePpm) p.input.cfg none

theorem recordedExecution_granted (target : ℤ) :
    recordedExecution (execRequest p target true) p.input.cfg =
      (do
        let wire ← tryFromExecutionFee (execRequest p target true) (clampedFee p target)
        return (appliedDecision p target, some ⟨wire, appliedDecision p target,
          p.input.channel.feeProportionalMillionths, p.input.cfg.baseFeeMsat⟩)) := rfl

theorem recordedExecution_denied (target : ℤ) :
    recordedExecution (execRequest p target false) p.input.cfg =
      .ok (appliedDecision p target, none) := rfl

def Goes (D : Deps π) (p : Prepared) (targetFeePpm : ℤ) (reason reasonCode : String) : Prop :=
  (D.authorized p targetFeePpm reason reasonCode).authorized = true ∧ Broadcastable p targetFeePpm

theorem finalize_goes (h : Goes D p c.targetFeePpm c.reason c.reasonCode) :
    Broadcasts (finalizeInitialFee D p c) ∧
      (finalizeInitialFee D p c).feeState = some (syncFee (c.feeState.getD D.freshFee)
        (clampedFee p c.targetFeePpm) p.eventTs) ∧
      (finalizeInitialFee D p c).cycleState = some (syncCycle (c.cycleState.getD .default)
        (clampedFee p c.targetFeePpm) p.eventTs) := by
  obtain ⟨hauth, hcast⟩ := h
  obtain ⟨wire, hwire⟩ := (tryFromExecutionFee_ok_iff true c.targetFeePpm).2 hcast
  have hrun := recordedExecution_granted (p := p) c.targetFeePpm
  rw [hwire] at hrun
  simp only [finalizeInitialFee, hauth, hrun, bind, Except.bind, pure, Except.pure]
  exact ⟨⟨_, rfl⟩, rfl, rfl⟩

theorem finalize_stays (h : ¬Goes D p c.targetFeePpm c.reason c.reasonCode) :
    ¬Broadcasts (finalizeInitialFee D p c) ∧ (finalizeInitialFee D p c).feeState = c.feeState ∧
      (finalizeInitialFee D p c).cycleState = c.cycleState := by
  rcases hauth : (D.authorized p c.targetFeePpm c.reason c.reasonCode).authorized with _ | _
  · simp only [finalizeInitialFee, hauth, recordedExecution_denied]
    exact ⟨fun ⟨_, h⟩ => (by cases h), rfl, rfl⟩
  · have hcast : ¬Broadcastable p c.targetFeePpm := fun hb => h ⟨hauth, hb⟩
    have hrun := recordedExecution_granted (p := p) c.targetFeePpm
    rcases hwire : tryFromExecutionFee (execRequest p c.targetFeePpm true)
        (clampedFee p c.targetFeePpm) with e | wire
    · rw [hwire] at hrun
      simp only [finalizeInitialFee, hauth, hrun, bind, Except.bind]
      exact ⟨fun ⟨_, h⟩ => (by cases h), trivial, trivial⟩
    · exact absurd ((tryFromExecutionFee_ok_iff true _).1 ⟨wire, hwire⟩) hcast

end Finalize

section Learning

variable {π : Type} {D : Deps π} {p : Prepared} {existingFee : Option (FeeRow π)}
  {existingCycle : Option ChannelCycleState}

/-- A candidate that hands on every row there is, moved at most by the prior. -/
structure Carries (p : Prepared) (existingFee : Option (FeeRow π))
    (existingCycle : Option ChannelCycleState) (c : Candidate π) : Prop where
  fee : ∀ f, existingFee = some f →
    ∃ t, c.feeState = some { f with thompson := t } ∧ PriorOnly p f.thompson t
  cycle : ∀ k, existingCycle = some k → c.cycleState = some k

/-- Neither the governor's word nor the executor's costs a carried row anything. -/
theorem Carries.keeps {c : Candidate π} (h : Carries p existingFee existingCycle c) :
    KeepsLearning p existingFee existingCycle (finalizeInitialFee D p c) := by
  by_cases hgo : Goes D p c.targetFeePpm c.reason c.reasonCode
  · obtain ⟨hcast, hfee, hcycle⟩ := finalize_goes hgo
    have hrow (f f' : FeeRow π) (hf : existingFee = some f)
        (hf' : (finalizeInitialFee D p c).feeState = some f') :
        ∃ t, f' = syncFee { f with thompson := t } (clampedFee p c.targetFeePpm) p.eventTs ∧
          PriorOnly p f.thompson t := by
      obtain ⟨t, ht, hprior⟩ := h.fee f hf
      rw [hfee, ht] at hf'
      exact ⟨t, (Option.some.inj hf').symm, hprior⟩
    constructor
    case prior =>
      intro f f' hf hf'
      obtain ⟨t, rfl, hprior⟩ := hrow f f' hf hf'
      exact hprior
    case feeSynced =>
      intro f f' hf hf' _
      obtain ⟨t, rfl, -⟩ := hrow f f' hf hf'
      simp
    case feeKept => exact fun _ _ _ _ hstay => absurd hcast hstay
    case cycleSynced =>
      intro k k' hk hk' _
      rw [hcycle, h.cycle k hk] at hk'
      cases hk'
      simp
    case cycleKept => exact fun _ _ _ _ hstay => absurd hcast hstay
  · obtain ⟨hstay, hfee, hcycle⟩ := finalize_stays hgo
    constructor
    case prior =>
      intro f f' hf hf'
      obtain ⟨t, ht, hprior⟩ := h.fee f hf
      rw [hfee, ht] at hf'
      cases hf'
      exact hprior
    case feeSynced => exact fun _ _ _ _ hcast => absurd hcast hstay
    case feeKept =>
      intro f f' hf hf' _
      obtain ⟨t, ht, -⟩ := h.fee f hf
      rw [hfee, ht] at hf'
      cases hf'
      rfl
    case cycleSynced => exact fun _ _ _ _ hcast => absurd hcast hstay
    case cycleKept =>
      intro k k' hk hk' _
      rw [hcycle, h.cycle k hk] at hk'
      exact (Option.some.inj hk').symm

theorem priorOnly_refl (h : ¬DynamicArm p ∨ p.input.prior = none)
    (t : GaussianThompsonState Float) :
    PriorOnly p t t := by
  refine ⟨fun prior hdyn hprior => ?_, fun _ => rfl⟩
  rcases h with h | h
  · exact absurd hdyn h
  · rw [h] at hprior
    cases hprior

theorem carries_dynamic {prior : FeePrior} (hdyn : DynamicArm p)
    (hprior : p.input.prior = some prior) :
    Carries p existingFee existingCycle (dynamicInitialFee D p existingFee existingCycle) := by
  constructor
  · intro f hf
    subst hf
    refine ⟨seedPrior prior p.eventTs f.thompson, ?_, ?_, ?_⟩
    · simp [dynamicInitialFee, hprior]
    · intro prior' _ hprior'
      rw [hprior] at hprior'
      cases hprior'
      exact seeded_seedPrior prior p.eventTs f.thompson
    · rintro (h | h)
      · exact absurd hdyn h
      · rw [hprior] at h
        cases h
  · intro k hk
    subst hk
    simp [dynamicInitialFee, hprior]

theorem dynamic_unseeded (existingFee : Option (FeeRow π))
    (existingCycle : Option ChannelCycleState) (hprior : p.input.prior = none) :
    dynamicInitialFee D p existingFee existingCycle =
      ⟨D.sampledFee p, openingReason, openingReasonCode, none, none⟩ := by
  simp [dynamicInitialFee, hprior]

theorem decideInitialFee_dynamic (hdyn : DynamicArm p) :
    decideInitialFee D p existingFee existingCycle =
      finalizeInitialFee D p (dynamicInitialFee D p existingFee existingCycle) := by
  rcases hdyn with hdyn | ⟨hstatic, htarget⟩
  · simp [decideInitialFee, hdyn]
  · simp [decideInitialFee, hstatic, htarget]

theorem keeps_nothing {d : Decision π} (hfee : d.feeState = none) (hcycle : d.cycleState = none) :
    KeepsLearning p existingFee existingCycle d := by
  constructor
  case prior | feeSynced | feeKept =>
    intro f f' _ hf'
    rw [hfee] at hf'
    cases hf'
  case cycleSynced | cycleKept =>
    intro k k' _ hk'
    rw [hcycle] at hk'
    cases hk'

theorem keeps_undecided (hdyn : ¬DynamicArm p) :
    KeepsLearning p existingFee existingCycle (decideInitialFee D p existingFee existingCycle) := by
  rcases hstrategy : p.input.policy.strategy with _ | _ | _
  · exact absurd (Or.inl hstrategy) hdyn
  · rcases htarget : p.input.policy.feePpmTarget with _ | target
    · exact absurd (Or.inr ⟨hstrategy, htarget⟩) hdyn
    · have hcarries : Carries p existingFee existingCycle
          (⟨target, "Initial fee: STATIC policy", "policy_static", existingFee, existingCycle⟩ :
            Candidate π) :=
        ⟨fun f hf => ⟨f.thompson, hf, priorOnly_refl (Or.inl hdyn) _⟩, fun k hk => hk⟩
      simpa only [decideInitialFee, hstrategy, htarget] using hcarries.keeps (D := D)
  · simp only [decideInitialFee, hstrategy]
    exact keeps_nothing rfl rfl

/-- An opening without a prior that goes through, on a channel with a row that has learned
anything. -/
def Forgets (D : Deps π) (p : Prepared) (existingFee : Option (FeeRow π))
    (existingCycle : Option ChannelCycleState) : Prop :=
  DynamicArm p ∧ p.input.prior = none ∧
    Goes D p (D.sampledFee p) openingReason openingReasonCode ∧
    ((∃ f, existingFee = some f ∧ learnedFee f ≠ learnedFee D.freshFee) ∨
      ∃ k, existingCycle = some k ∧ learnedCycle k ≠ learnedCycle .default)

/-- Without a prior a change that goes through is written on fresh rows. -/
theorem unseeded_goes (existingFee : Option (FeeRow π))
    (existingCycle : Option ChannelCycleState) (hdyn : DynamicArm p) (hprior : p.input.prior = none)
    (hgo : Goes D p (D.sampledFee p) openingReason openingReasonCode) :
    let d := decideInitialFee D p existingFee existingCycle
    Broadcasts d ∧
      d.feeState = some (syncFee D.freshFee (clampedFee p (D.sampledFee p)) p.eventTs) ∧
      d.cycleState = some (syncCycle .default (clampedFee p (D.sampledFee p)) p.eventTs) := by
  intro d
  have hd : d = finalizeInitialFee D p
      ⟨D.sampledFee p, openingReason, openingReasonCode, none, none⟩ := by
    rw [← dynamic_unseeded existingFee existingCycle hprior]
    exact decideInitialFee_dynamic hdyn
  rw [hd]
  exact finalize_goes hgo

theorem Forgets.not_keeps (h : Forgets D p existingFee existingCycle) :
    ¬KeepsLearning p existingFee existingCycle
      (decideInitialFee D p existingFee existingCycle) := by
  intro hkeeps
  obtain ⟨hdyn, hprior, hgo, hlearned⟩ := h
  obtain ⟨hcast, hfee, hcycle⟩ :=
    unseeded_goes existingFee existingCycle hdyn hprior hgo
  rcases hlearned with ⟨f, hf, hne⟩ | ⟨k, hk, hne⟩
  · -- the posterior of the returned row is the fresh one, so the old row's would be too
    have ht := (hkeeps.prior f _ hf hfee).2 (Or.inr hprior)
    have hrow := hkeeps.feeSynced f _ hf hfee hcast
    rw [ht, learnedFee_syncFee] at hrow
    exact hne hrow.symm
  · have hrow := hkeeps.cycleSynced k _ hk hcycle hcast
    rw [learnedCycle_syncCycle] at hrow
    exact hne hrow.symm

/-- Rows that never were anything but fresh lose nothing to fresh ones. -/
theorem keeps_fresh (hdyn : DynamicArm p) (hprior : p.input.prior = none)
    (hgo : Goes D p (D.sampledFee p) openingReason openingReasonCode)
    (hfresh : ∀ f, existingFee = some f → learnedFee f = learnedFee D.freshFee)
    (hcycleFresh : ∀ k, existingCycle = some k → learnedCycle k = learnedCycle .default) :
    KeepsLearning p existingFee existingCycle
      (decideInitialFee D p existingFee existingCycle) := by
  obtain ⟨hcast, hfee, hcycle⟩ :=
    unseeded_goes existingFee existingCycle hdyn hprior hgo
  have hthompson (f : FeeRow π) (hf : existingFee = some f) :
      D.freshFee.thompson = f.thompson := by
    have hsame := congrArg (fun r : FeeRow π => r.thompson) (hfresh f hf)
    exact hsame.symm
  constructor
  case prior =>
    intro f f' hf hf'
    rw [hfee] at hf'
    cases hf'
    rw [syncFee_thompson, hthompson f hf]
    exact priorOnly_refl (Or.inr hprior) _
  case feeSynced =>
    intro f f' hf hf' _
    rw [hfee] at hf'
    cases hf'
    rw [syncFee_thompson, hthompson f hf, learnedFee_syncFee]
    exact (hfresh f hf).symm
  case feeKept => exact fun _ _ _ _ hstay => absurd hcast hstay
  case cycleSynced =>
    intro k k' hk hk' _
    rw [hcycle] at hk'
    cases hk'
    rw [learnedCycle_syncCycle]
    exact (hcycleFresh k hk).symm
  case cycleKept => exact fun _ _ _ _ hstay => absurd hcast hstay

theorem keeps_stayed (hdyn : DynamicArm p) (hprior : p.input.prior = none)
    (hstay : ¬Goes D p (D.sampledFee p) openingReason openingReasonCode) :
    KeepsLearning p existingFee existingCycle
      (decideInitialFee D p existingFee existingCycle) := by
  rw [decideInitialFee_dynamic hdyn, dynamic_unseeded _ _ hprior]
  obtain ⟨-, hfee, hcycle⟩ := finalize_stays (D := D) (p := p)
    (c := ⟨D.sampledFee p, openingReason, openingReasonCode, none, none⟩) hstay
  exact keeps_nothing hfee hcycle

/-- An initial-fee decision keeps what the channel has learned, whatever governor, draw and rows,
unless it broadcasts a sampled fee without a prior over rows that are not fresh. -/
theorem initial_fee_keeps_learning_iff (D : Deps π) (p : Prepared)
    (existingFee : Option (FeeRow π)) (existingCycle : Option ChannelCycleState) :
    KeepsLearning p existingFee existingCycle (decideInitialFee D p existingFee existingCycle) ↔
      ¬Forgets D p existingFee existingCycle := by
  constructor
  · exact fun hkeeps hforgets => hforgets.not_keeps hkeeps
  · intro hkept
    by_cases hdyn : DynamicArm p
    · rcases hprior : p.input.prior with _ | prior
      · by_cases hgo : Goes D p (D.sampledFee p) openingReason openingReasonCode
        · refine keeps_fresh hdyn hprior hgo (fun f hf => ?_) (fun k hk => ?_)
          · by_contra hne
            exact hkept ⟨hdyn, hprior, hgo, Or.inl ⟨f, hf, hne⟩⟩
          · by_contra hne
            exact hkept ⟨hdyn, hprior, hgo, Or.inr ⟨k, hk, hne⟩⟩
        · exact keeps_stayed hdyn hprior hgo
      · rw [decideInitialFee_dynamic hdyn]
        exact (carries_dynamic hdyn hprior).keeps
    · exact keeps_undecided hdyn

end Learning

section Reopened

def openNode : Deps Unit :=
  ⟨fun _ => .ok ⟨true, "authorized", none⟩, fun _ lo hi => (lo + hi) / 2, ()⟩

def reopened : Prepared where
  channelId := "800x1x0"
  eventTs := 1700000000
  eventKey := "800x1x0:CHANNELD_AWAITING_LOCKIN:CHANNELD_NORMAL:1700000000"
  input :=
    { channel := ⟨"800x1x0", 5000000, 2500000000, 0, 10, 5000000000, "local", false, 483, 0⟩
      peerId := "02aa"
      policy := .defaultFor "02aa"
      cfg := .default
      thompsonPriorStdFee := 100
      prior := none }

def learnedRow : FeeRow Unit :=
  let fresh := openNode.freshFee
  { fresh with thompson := { fresh.thompson with zeroRevenueStreak := 7 }, stableCycles := 12 }

def congestedRow : ChannelCycleState :=
  { ChannelCycleState.default with congestionActive := true, congestionEntryFeePpm := 400 }

/-- A channel that is announced again without a gossip prior starts from fresh rows. -/
theorem reopened_channel_forgets :
    ¬KeepsLearning reopened (some learnedRow) (some congestedRow)
      (decideInitialFee openNode reopened (some learnedRow) (some congestedRow)) := by
  apply Forgets.not_keeps
  have hgo : Goes openNode reopened (openNode.sampledFee reopened) openingReason
      openingReasonCode := by
    refine ⟨rfl, rfl, ?_, ?_, ?_⟩ <;> decide
  refine ⟨Or.inl rfl, rfl, hgo, Or.inr ⟨congestedRow, rfl, fun h => ?_⟩⟩
  have hactive := congrArg ChannelCycleState.congestionActive h
  cases hactive

end Reopened

end InitialFee
