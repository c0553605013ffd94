import RevenueOps.FeeRails
import RevenueOps.GossipRefresh

/-! What a silent channel's fee does. A decision taken under the guard against ratcheting goes from
the current fee towards the floor, whatever the belief, the anchor and the ceiling say, and a run of
such decisions is monotone and never crosses the floor. -/
namespace FeeCycle

open FallibleState RustNumber RustFloat

variable {ω τ π : Type} {K : Kernel τ π} {d : CycleDeps ω τ π} {sc : Scene} {t : Target}

section Towards

variable {floor current decided guarded : ℤ}

theorem TowardsFloor.damped (h : TowardsFloor floor current guarded)
    (hbetween : min current guarded ≤ decided ∧ decided ≤ max current guarded) :
    TowardsFloor floor current decided := by
  obtain ⟨hdown, hup⟩ := h
  obtain ⟨hlo, hhi⟩ := hbetween
  constructor
  · intro hle
    have := hdown hle
    omega
  · intro hle
    have := hup hle
    omega

/-- The fees of a run that starts above the floor fall, and those of one that starts below rise. -/
structure Settles (floor : ℤ) (fees : List ℤ) : Prop where
  above : ∀ c ∈ fees.head?, floor ≤ c → fees.Pairwise (· ≥ ·) ∧ ∀ f ∈ fees, floor ≤ f
  below : ∀ c ∈ fees.head?, c ≤ floor → fees.Pairwise (· ≤ ·) ∧ ∀ f ∈ fees, f ≤ floor

theorem settles_of_towards {fees : List ℤ} (h : fees.IsChain (TowardsFloor floor)) :
    Settles floor fees := by
  induction fees with
  | nil => exact ⟨fun _ hc => absurd hc (by simp), fun _ hc => absurd hc (by simp)⟩
  | cons c rest ih =>
    cases rest with
    | nil =>
      constructor
      · intro b hb hle
        obtain rfl : c = b := by simpa using hb
        simpa using hle
      · intro b hb hle
        obtain rfl : c = b := by simpa using hb
        simpa using hle
    | cons f rest =>
      rw [List.isChain_cons_cons] at h
      obtain ⟨⟨hdown, hup⟩, hrest⟩ := h
      obtain ⟨habove, hbelow⟩ := ih hrest
      constructor
      · intro b hb hle
        obtain rfl : c = b := by simpa using hb
        obtain ⟨hf, hfc⟩ := hdown hle
        obtain ⟨hsorted, hall⟩ := habove f rfl hf
        refine ⟨List.pairwise_cons.mpr ⟨fun g hg => ?_, hsorted⟩, fun g hg => ?_⟩
        · rcases List.mem_cons.mp hg with rfl | hg
          · exact hfc
          · exact (List.rel_of_pairwise_cons hsorted hg).trans hfc
        · rcases List.mem_cons.mp hg with rfl | hg
          · exact hle
          · exact hall g hg
      · intro b hb hle
        obtain rfl : c = b := by simpa using hb
        obtain ⟨hcf, hf⟩ := hup hle
        obtain ⟨hsorted, hall⟩ := hbelow f rfl hf
        refine ⟨List.pairwise_cons.mpr ⟨fun g hg => ?_, hsorted⟩, fun g hg => ?_⟩
        · rcases List.mem_cons.mp hg with rfl | hg
          · exact hcf
          · exact hcf.trans (List.rel_of_pairwise_cons hsorted hg)
        · rcases List.mem_cons.mp hg with rfl | hg
          · exact hle
          · exact hall g hg

end Towards

section Decision

def Guarded (sc : Scene) (t : Target) : Prop :=
  t.zeroFlowGuardReason.isSome = true →
    TowardsFloor (max sc.rails.floorPpm 0) sc.currentFeePpm t.newFeePpm

theorem guarded_of_none (h : t.zeroFlowGuardReason = none) : Guarded sc t := by
  intro hsome
  rw [h] at hsome
  cases hsome

/-- The guard of a decision is the rails' guard, with the scene's fee and floor. -/
theorem zeroFlowGuard_applies (sig : Signal) (blended : ℤ) (capPpm : Option ℤ) (thompson : τ)
    (w : ω) :
    wp (zeroFlowGuard K.withRails d sc sig blended capPpm thompson) (Post.returns fun r _ =>
      ∃ i : ZeroFlowInputs, i.currentFee = sc.currentFeePpm ∧ i.minFee = sc.rails.floorPpm ∧
        r = applyZeroFlowRatchetGuard i) w := by
  apply returns_then
  intro earningNow w₁
  apply returns_then
  intro meaningfulNow w₂
  exact returns_pure ⟨_, rfl, rfl, rfl⟩

theorem settleSample_guarded (hcurrent : InI64 sc.currentFeePpm) (hprofile : sc.profile.Moves)
    (sig : Signal) (dtsFee : ℤ) (p : Priced) (s : ChannelRun ω τ π) :
    wp (settleSample K.withRails d sc sig dtsFee p) (Post.returns fun t _ => Guarded sc t) s := by
  apply returns_then
  intro anchor s₁
  apply returns_read_bind
  apply returns_bind (f := fun r _ => ∃ i : ZeroFlowInputs, i.currentFee = sc.currentFeePpm ∧
    i.minFee = sc.rails.floorPpm ∧ r = applyZeroFlowRatchetGuard i)
  · exact returns_on (zeroFlowGuard_applies _ _ _ _ _)
  rintro ⟨guarded, guard⟩ s₂ ⟨i, hfee, hfloor, happlied⟩
  apply returns_modify_bind
  apply returns_pure
  intro hsome
  have hactive : i.guardActive = true := by
    rw [← guard_isSome_iff, ← happlied]
    exact hsome
  have htowards := guard_towardsFloor (hfee ▸ hcurrent) hactive
  rw [← happlied, hfee, ZeroFlowInputs.floor, hfloor] at htowards
  exact htowards.damped (applyDampedFeeTarget_between hprofile)

theorem dtsTarget_guarded (hcurrent : InI64 sc.currentFeePpm) (hprofile : sc.profile.Moves)
    (s : ChannelRun ω τ π) :
    wp (dtsTarget K.withRails d sc) (Post.returns fun t _ => ∀ x ∈ t, Guarded sc x) s := by
  apply returns_read_bind
  apply returns_modify_bind
  apply returns_then
  intro _ s₁
  apply returns_ite
  · intro _
    apply returns_modify_bind
    exact returns_pure (by simp)
  · intro _
    have hsample : wp (sampleTarget K.withRails d sc (signal K.withRails sc s.fee))
        (Post.returns fun t _ => Guarded sc t) s₁ := by
      apply returns_then
      intro _ s₂
      apply returns_then
      intro sampled s₃
      apply returns_modify_bind
      apply returns_then
      intro priced s₄
      exact settleSample_guarded hcurrent hprofile _ _ _ s₄
    apply returns_bind hsample
    intro target s₂ htarget
    exact returns_pure (by simpa using htarget)

theorem congestionTarget_unguarded (s : ChannelRun ω τ π) :
    wp (congestionTarget K d sc) (Post.returns fun t _ => t.zeroFlowGuardReason = none) s := by
  apply returns_modify_bind
  apply returns_then
  intro _ s₁
  apply returns_read_bind
  apply returns_modify_bind
  apply returns_read_bind
  apply returns_read_bind
  apply returns_pure
  rw [congestionMove]
  split
  · rfl
  · rfl

theorem explorationTarget_unguarded (s : ChannelRun ω τ π) :
    wp (explorationTarget K d sc) (Post.returns fun t _ => t.zeroFlowGuardReason = none) s := by
  apply returns_then
  intro _ s₁
  apply returns_ite
  · intro _
    apply returns_then
    intro _ s₂
    exact returns_pure rfl
  · intro _
    apply returns_read_bind
    exact returns_pure rfl

theorem decideTarget_guarded (hcurrent : InI64 sc.currentFeePpm) (hprofile : sc.profile.Moves)
    (s : ChannelRun ω τ π) :
    wp (decideTarget K.withRails d sc) (Post.returns fun t _ => ∀ x ∈ t, Guarded sc x) s := by
  apply returns_ite
  · intro _
    apply returns_bind (congestionTarget_unguarded s)
    intro target s₁ hnone
    exact returns_pure (by simpa using guarded_of_none hnone)
  · intro _
    apply returns_modify_bind
    apply returns_ite
    · intro _
      apply returns_bind (explorationTarget_unguarded _)
      intro target s₁ hnone
      exact returns_pure (by simpa using guarded_of_none hnone)
    · exact fun _ => dtsTarget_guarded hcurrent hprofile _

end Decision

/-- From this fee the decision under the guard reached that one, over this floor. The scene is the
one that an adjustment builds, under any configuration and evidence. -/
def GuardedDecision (ω : Type) (K : Kernel τ π) (floor current decided : ℤ) : Prop :=
  InI64 current ∧ ∃ (d : CycleDeps ω τ π) (ctx : AdjustCtx) (isCongested isUnderExploration : Bool)
      (now : ℤ) (woke : Bool × String) (obs : Observation) (r : Rails) (before : ChannelCycleState)
      (s : ChannelRun ω τ π) (t : Target) (u : ChannelRun ω τ π),
    decideTarget K.withRails d (scene K.withRails d ctx isCongested isUnderExploration current now
      woke obs r before) s = (.ok (some t), u) ∧
    t.zeroFlowGuardReason.isSome = true ∧ max r.floorPpm 0 = floor ∧ t.newFeePpm = decided

theorem guardedDecision_towards {floor current decided : ℤ}
    (h : GuardedDecision ω K floor current decided) : TowardsFloor floor current decided := by
  obtain ⟨hcurrent, d, ctx, _, _, now, woke, obs, r, before, s, t, u, hrun, hsome, rfl, rfl⟩ := h
  have hprofile := feeProfile_moves K.withRails d.cfg.feeProfile
  exact returned (decideTarget_guarded hcurrent hprofile s) hrun t rfl hsome

/-- Silence never ratchets a fee upward. -/
theorem silence_never_ratchets (ω : Type) (K : Kernel τ π) (floor : ℤ) :
    (∀ current decided, GuardedDecision ω K floor current decided →
      TowardsFloor floor current decided) ∧
    (∀ fees : List ℤ, fees.IsChain (GuardedDecision ω K floor) → Settles floor fees) ∧
    ∀ gapEmaHours cycleHours, 8 ≤ (zeroFlowStreakThresholds gapEmaHours cycleHours).1 ∧
      (zeroFlowStreakThresholds gapEmaHours cycleHours).1 ≤
        (zeroFlowStreakThresholds gapEmaHours cycleHours).2 := by
  refine ⟨fun _ _ => guardedDecision_towards, fun fees h => ?_, streakThresholds_ordered⟩
  exact settles_of_towards (h.imp fun _ _ => guardedDecision_towards)

section Samples

def silentKernel : Kernel Unit Unit := { plainKernel with zeroRevenueStreak := fun _ => 24 }

def silentDeps : CycleDeps Unit Unit Unit := plainDeps (fun _ => always none) (always 200000)

def silentRails : Rails := ⟨"", 10, 100, 0, 100, 5000, 1.0⟩

def silentScene (currentFeePpm : ℤ) : Scene :=
  scene silentKernel.withRails silentDeps refreshCtx false false currentFeePpm 200000
    (false, "none") ⟨100000, 0, 0, 27.0⟩ silentRails .default

def silentFee (currentFeePpm : ℤ) : Option ℤ :=
  match (decideTarget silentKernel.withRails silentDeps
    (silentScene currentFeePpm) refreshRun).1 with
  | .ok (some t) => if t.zeroFlowGuardReason.isSome then some t.newFeePpm else none
  | _ => none

theorem guardedDecision_silent {current decided : ℤ} (hcurrent : InI64 current)
    (h : silentFee current = some decided) :
    GuardedDecision Unit silentKernel 100 current decided := by
  unfold silentFee at h
  split at h
  · rename_i t hrun
    by_cases hguard : t.zeroFlowGuardReason.isSome = true
    · rw [if_pos hguard, Option.some.injEq] at h
      exact ⟨hcurrent, silentDeps, refreshCtx, false, false, 200000, (false, "none"), _,
        silentRails, .default,
        refreshRun, t, _, Prod.ext hrun rfl, hguard, rfl, h⟩
    · rw [if_neg hguard] at h
      cases h
  · cases h

/-- Three silent decisions in a row. -/
theorem silence_never_ratchets_falling :
    ∃ fees : List ℤ, fees.length = 3 ∧ fees.head? = some 1000 ∧ Settles 100 fees := by
  have hfirst : silentFee 1000 = some 820 := by decide +kernel
  have hsecond : silentFee 820 = some 676 := by decide +kernel
  have hchain : [1000, 820, 676].IsChain (GuardedDecision Unit silentKernel 100) := by
    refine .cons_cons ?_ (.cons_cons ?_ (.singleton _))
    · exact guardedDecision_silent (by decide) hfirst
    · exact guardedDecision_silent (by decide) hsecond
  exact ⟨_, rfl, rfl, (silence_never_ratchets Unit silentKernel 100).2.1 _ hchain⟩

end Samples

end FeeCycle
