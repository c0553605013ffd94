import RevenueOps.Binary64Casts
import RevenueOps.FeeTarget

/-! The rails of one fee decision: the step cap, the blend towards a target, the damping, the
low-fee exploration target and the guard against ratcheting while the channel is silent. -/
namespace FeeCycle

open RustNumber RustFloat

section Steps

def feeStepCap (currentFeePpm : ℤ) (wokeFromSleep : Bool) (profile : FeeProfileSettings) : ℤ :=
  let ratio :=
    if wokeFromSleep then profile.wakeCycleMaxDeltaRatio else profile.normalCycleMaxDeltaRatio
  let minDelta :=
    if wokeFromSleep then profile.wakeCycleMinDeltaPpm else profile.normalCycleMinDeltaPpm
  max minDelta (asI64 (ceilF64 (asF64 (max currentFeePpm 1) * ratio)))

def targetBlendRatio (woke : Bool) (posteriorStd : Float) (profileName : String)
    (profile : FeeProfileSettings) : Float :=
  let ratio :=
    if 200.0 ≤ posteriorStd then profile.sparseTargetBlendRatio
    else if 100.0 ≤ posteriorStd then 0.30
    else if 50.0 ≤ posteriorStd then 0.45
    else 0.60
  let ratio :=
    if profileName ≠ "active" then minF64 ratio profile.normalTargetBlendRatio else ratio
  if woke then minF64 ratio profile.wakeTargetBlendRatio else ratio

/-- A part of the way to the target, and at least one ppm of it. -/
def blendDelta (requested : ℤ) (ratio : Float) : ℤ :=
  let blended := asI64 (roundTiesEvenF64 (asF64 requested * ratio))
  if requested ≠ 0 ∧ blended = 0 then (if 0 < requested then 1 else -1) else blended

def blendFeeTarget (current boundedTarget : ℤ) (woke _sparse : Bool) (posteriorStd : Float)
    (profileName : String) (profile : FeeProfileSettings) : ℤ × Float :=
  let ratio := targetBlendRatio woke posteriorStd profileName profile
  (current + blendDelta (boundedTarget - current) ratio, ratio)

/-- The applied fee, what capped the move, and the cap. -/
def applyDampedFeeTarget (current target : ℤ) (woke : Bool) (profile : FeeProfileSettings) :
    ℤ × String × ℤ :=
  let delta := target - current
  let maxDelta := feeStepCap current woke profile
  if maxDelta < |delta| then
    (current + (if 0 < delta then maxDelta else -maxDelta),
      if woke then "wake_cycle_delta_cap" else "normal_cycle_delta_cap", maxDelta)
  else (target, "none", maxDelta)

def explorationFeeTarget (currentFeePpm floorPpm cfgMinFeePpm : ℤ) (sparse : Bool)
    (effectiveMinFeePpm : Option ℤ) : ℤ :=
  let floor := max floorPpm (effectiveMinFeePpm.getD cfgMinFeePpm)
  if currentFeePpm ≤ floor then floor
  else
    let discountRatio : Float := if sparse then 0.50 * 0.5 else 0.50
    let headroomRatio : Float := if sparse then 0.50 else 0.35
    let floorCandidate := asI64 (ceilF64 (asF64 floor * 1.25))
    let headroom := max (currentFeePpm - floor) 0
    let headroomCandidate := floor + asI64 (roundTiesEvenF64 (asF64 headroom * headroomRatio))
    let discounted := asI64 (roundTiesEvenF64 (asF64 currentFeePpm * (1.0 - discountRatio)))
    max floor (min (max floorCandidate headroomCandidate) discounted)

def kalmanDemandFactor (expectedDemand : Float) : Float :=
  maxF64 (minF64 (expectedDemand / 0.5) 2.0) 1.0

def explorationStdThreshold (currentFeePpm : ℤ) : Float :=
  maxF64 100.0 (0.04 * asF64 (max currentFeePpm 0))

end Steps

section Silence

def zeroFlowGuardStreak : ℤ := 8
def zeroFlowDownshiftStreak : ℤ := 24
def zeroFlowDownshiftRatio : Float := 0.85
def zeroFlowDownshiftIntervalCycles : ℤ := 12
def zeroFlowAnchorFloorFrac : Float := 0.5

/-- The streaks that start the guard and its downshifts, at the cadence of the channel. -/
def zeroFlowStreakThresholds (gapEmaHours cycleHours : Float) : ℤ × ℤ :=
  if !gapEmaHours.isFinite || gapEmaHours ≤ 0.0 || !cycleHours.isFinite || cycleHours ≤ 0.0 then
    (zeroFlowGuardStreak, zeroFlowDownshiftStreak)
  else
    let gapCycles := minF64 gapEmaHours 168.0 / cycleHours
    let guard := max zeroFlowGuardStreak (asI64 (ceilF64 (gapCycles * 2.0)))
    let downshift := max zeroFlowDownshiftStreak (asI64 (ceilF64 (gapCycles * 4.0)))
    (guard, max downshift guard)

namespace ZeroFlowInputs

variable (i : ZeroFlowInputs)

def floor : ℤ := max i.minFee 0
def streak : ℤ := max i.zeroRevenueStreak 0

/-- Revenue too small to mean anything counts as silence. -/
def trickle : Bool := i.rateIsMeaningful == some false && 0.0 < i.revenueRate

def guardThresh : ℤ := (i.guardStreak.filter (· ≠ 0)).getD zeroFlowGuardStreak
def downshiftThresh : ℤ := (i.downshiftStreak.filter (· ≠ 0)).getD zeroFlowDownshiftStreak

/-- No meaningful revenue, no counted forward, and a streak that has reached the threshold. -/
def guardActive : Bool :=
  !((if i.trickle then 0.0 else i.revenueRate) != 0.0) &&
    (i.trickle || max i.forwardsSinceUpdate 0 == 0) && i.guardThresh ≤ i.streak

def onDownshiftStep : Bool :=
  i.downshiftThresh ≤ i.streak &&
    (i.streak - i.downshiftThresh) % zeroFlowDownshiftIntervalCycles == 0

def downshiftCap : ℤ :=
  let cap := asI64 (floorF64 (asF64 i.currentFee * zeroFlowDownshiftRatio))
  let supported := i.supportedFeeCeiling.getD 0.0
  if supported.isFinite && 0.0 < supported then min cap (asI64 supported) else cap

/-- A part of the earning anchor may hold the decay and never raises the fee. -/
def softFloor : ℤ :=
  let anchor := i.earningAnchorPpm.getD 0.0
  if anchor.isFinite && 0.0 < anchor then
    max i.floor (min i.currentFee (asI64 (anchor * zeroFlowAnchorFloorFrac)))
  else i.floor

end ZeroFlowInputs

/-- A floor above the current fee wins and is tagged as such, not as a guard. -/
def applyZeroFlowRatchetGuard (i : ZeroFlowInputs) : ℤ × Option String :=
  if i.guardActive then
    if i.onDownshiftStep then
      let guarded := max i.softFloor (min i.targetFee i.downshiftCap)
      (guarded, some (if i.currentFee < guarded then "zero_flow_floor_override"
        else if guarded = i.currentFee then "zero_flow_ratchet_guard" else "zero_flow_downshift"))
    else
      let guarded := max i.floor (min i.targetFee i.currentFee)
      (guarded, some (if i.currentFee < guarded then "zero_flow_floor_override"
        else "zero_flow_ratchet_guard"))
  else (i.targetFee, none)

end Silence

/-- The kernel with the rails as the program has them. -/
def Kernel.withRails {τ π : Type} (K : Kernel τ π) : Kernel τ π :=
  { K with
    blendFeeTarget := FeeCycle.blendFeeTarget
    applyDampedFeeTarget := FeeCycle.applyDampedFeeTarget
    explorationFeeTarget := FeeCycle.explorationFeeTarget
    kalmanDemandFactor := FeeCycle.kalmanDemandFactor
    explorationStdThreshold := FeeCycle.explorationStdThreshold
    zeroFlowStreakThresholds := FeeCycle.zeroFlowStreakThresholds
    applyZeroFlowRatchetGuard := FeeCycle.applyZeroFlowRatchetGuard }

section Damping

variable {current target : ℤ} {woke : Bool} {profile : FeeProfileSettings}

def FeeProfileSettings.Moves (p : FeeProfileSettings) : Prop :=
  0 ≤ p.normalCycleMinDeltaPpm ∧ 0 ≤ p.wakeCycleMinDeltaPpm

theorem feeProfile_moves {τ π : Type} (K : Kernel τ π) (name : String) :
    (feeProfile K name).2.Moves := by
  rw [feeProfile]
  split
  · exact ⟨by decide, by decide⟩
  · exact ⟨by decide, by decide⟩

theorem feeStepCap_nonneg (h : profile.Moves) : 0 ≤ feeStepCap current woke profile := by
  rw [feeStepCap]
  cases woke with
  | false => exact h.1.trans (le_max_left _ _)
  | true => exact h.2.trans (le_max_left _ _)

/-- The damped fee stays between the current one and the target. -/
theorem applyDampedFeeTarget_between (h : profile.Moves) :
    min current target ≤ (applyDampedFeeTarget current target woke profile).1 ∧
      (applyDampedFeeTarget current target woke profile).1 ≤ max current target := by
  have hcap : 0 ≤ feeStepCap current woke profile := feeStepCap_nonneg h
  rw [applyDampedFeeTarget]
  split
  · rename_i hlt
    rw [lt_abs] at hlt
    split
    · simp only
      omega
    · simp only
      omega
  · simp only
    omega

end Damping

section Guard

variable {i : ZeroFlowInputs}

/-- From the current fee towards the floor, and not past it. -/
def TowardsFloor (floor current decided : ℤ) : Prop :=
  (floor ≤ current → floor ≤ decided ∧ decided ≤ current) ∧
    (current ≤ floor → current ≤ decided ∧ decided ≤ floor)

theorem guard_isSome_iff : (applyZeroFlowRatchetGuard i).2.isSome ↔ i.guardActive = true := by
  rw [applyZeroFlowRatchetGuard]
  cases i.guardActive with
  | false => simp
  | true =>
    simp only [if_true, iff_true]
    split
    · rfl
    · rfl

theorem denotes_downshiftRatio :
    Binary64.Denotes zeroFlowDownshiftRatio (7656119366529843 / 2 ^ 53 : ℝ) := by
  have hunpack : zeroFlowDownshiftRatio.toModel.unpack =
      .finite .positive 7656119366529843 (-53) (by decide) := rfl
  exact Binary64.denotes_positive hunpack (by rw [zpow_neg, div_eq_mul_inv]; norm_num)

theorem downshiftCap_le (hcurrent : InI64 i.currentFee) : i.downshiftCap ≤ max i.currentFee 0 := by
  have hscaled := Binary64.asI64_scaled_le denotes_downshiftRatio (by positivity) (by norm_num)
    hcurrent
  rw [ZeroFlowInputs.downshiftCap]
  split
  · exact (min_le_left _ _).trans hscaled
  · exact hscaled

theorem softFloor_bounds (i : ZeroFlowInputs) :
    i.floor ≤ i.softFloor ∧ i.softFloor ≤ max i.floor i.currentFee := by
  simp only [ZeroFlowInputs.softFloor]
  split
  · omega
  · omega

theorem guard_towardsFloor (hcurrent : InI64 i.currentFee) (hactive : i.guardActive = true) :
    TowardsFloor i.floor i.currentFee (applyZeroFlowRatchetGuard i).1 := by
  have hfloor : 0 ≤ i.floor := le_max_right _ _
  have hcap := downshiftCap_le hcurrent
  obtain ⟨hsoft, hsoft'⟩ := softFloor_bounds i
  rw [applyZeroFlowRatchetGuard, if_pos hactive]
  split
  · constructor
    · intro hle
      simp only
      omega
    · intro hle
      simp only
      omega
  · constructor
    · intro hle
      simp only
      omega
    · intro hle
      simp only
      omega

theorem streakThresholds_ordered (gapEmaHours cycleHours : Float) :
    8 ≤ (zeroFlowStreakThresholds gapEmaHours cycleHours).1 ∧
      (zeroFlowStreakThresholds gapEmaHours cycleHours).1 ≤
        (zeroFlowStreakThresholds gapEmaHours cycleHours).2 := by
  simp only [zeroFlowStreakThresholds, zeroFlowGuardStreak, zeroFlowDownshiftStreak]
  split
  · decide
  · simp only
    omega

end Guard

end FeeCycle
