import RevenueOps.FeeOwner
import RevenueOps.CutoverArms

/-! The mode matrix: which flags, arm and seed evidence start which operating mode. -/
namespace FeeMode

open CutoverArms

structure ModeFlags where
  observer : Bool
  feeDryrun : Bool
  feeBroadcast : Bool
  feeStatefulShadow : Bool
  deriving DecidableEq

inductive ShadowSeedStatus where
  | pendingFirstCycle
  | alreadySeeded
  deriving DecidableEq

inductive ValidatedFeeMode where
  | passiveObserver
  | autonomousShadow (seedStatus : ShadowSeedStatus)
  | liveAuthority (arm : LiveSessionArm)

/-- Why a seed provenance is invalid: what the store says, or a seeded verdict on virgin rows. -/
inductive SeedProvenance where
  | contradiction (binding : FeeRunway.SeedBindingState)
  | unverified (reason : String)

inductive FeeModeDenyReason where
  | invalidCombination (flags : ModeFlags)
  | armPresentInNonLiveMode
  | liveModeRequiresArm
  | neverSeeded
  | seedProvenanceInvalid (reason : SeedProvenance)
  | liveModeRequiresSeededState

def storeIsVirgin (state : FeeOwner.FeeStateSnapshot) : Bool :=
  state.generation == 0 && state.rows.isEmpty

def validateFeeMode (flags : ModeFlags) (arm : Option LiveSessionArm)
    (state : FeeOwner.FeeStateSnapshot) (seedBinding : FeeRunway.SeedBindingState) :
    Except FeeModeDenyReason ValidatedFeeMode :=
  match flags.observer, flags.feeDryrun, flags.feeBroadcast, flags.feeStatefulShadow with
  | true, false, false, false =>
    if arm.isSome then .error .armPresentInNonLiveMode else .ok .passiveObserver
  | true, true, false, true =>
    if arm.isSome then .error .armPresentInNonLiveMode
    else if storeIsVirgin state then
      match seedBinding with
      | .virginStore => .ok (.autonomousShadow .pendingFirstCycle)
      | .verifiedBound cycleId =>
        .error (.seedProvenanceInvalid (.contradiction (.verifiedBound cycleId)))
      | .invalid reason => .error (.seedProvenanceInvalid (.contradiction (.invalid reason)))
    else
      match seedBinding with
      | .verifiedBound _ => .ok (.autonomousShadow .alreadySeeded)
      | .virginStore => .error .neverSeeded
      | .invalid reason => .error (.seedProvenanceInvalid (.unverified reason))
  | false, false, true, false =>
    match arm with
    | none => .error .liveModeRequiresArm
    | some arm =>
      if state.generation = 0 then .error .liveModeRequiresSeededState
      else
        match seedBinding with
        | .verifiedBound _ => .ok (.liveAuthority arm)
        | .virginStore => .error .liveModeRequiresSeededState
        | .invalid reason => .error (.seedProvenanceInvalid (.unverified reason))
  | _, _, _, _ => .error (.invalidCombination flags)

/-- Live authority holds the arm that was consumed for it, over a store that is seeded. -/
theorem validateFeeMode_live {flags : ModeFlags} {arm : Option LiveSessionArm}
    {state : FeeOwner.FeeStateSnapshot} {seedBinding : FeeRunway.SeedBindingState}
    {session : LiveSessionArm}
    (h : validateFeeMode flags arm state seedBinding = .ok (.liveAuthority session)) :
    arm = some session ∧ flags = ⟨false, false, true, false⟩ ∧ state.generation ≠ 0 ∧
      ∃ cycleId, seedBinding = .verifiedBound cycleId := by
  obtain ⟨observer, feeDryrun, feeBroadcast, feeStatefulShadow⟩ := flags
  simp only [validateFeeMode] at h
  split at h
  · split at h <;> cases h
  · split at h
    · cases h
    · split at h <;> split at h <;> cases h
  · cases arm with
    | none => cases h
    | some arm =>
      by_cases hg : state.generation = 0
      · simp [hg] at h
      · cases seedBinding with
        | verifiedBound cycleId =>
          simp only [hg, if_false, Except.ok.injEq, ValidatedFeeMode.liveAuthority.injEq] at h
          exact ⟨by rw [h], by simp_all, hg, cycleId, rfl⟩
        | virginStore => simp [hg] at h
        | invalid reason => simp [hg] at h
  · cases h

end FeeMode
