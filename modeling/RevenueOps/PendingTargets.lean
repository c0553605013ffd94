import Mathlib.Data.Int.Interval
import RevenueOps.Binary64Order
import RevenueOps.FeeMemory
import RevenueOps.FeeSilence

/-! Targets that the deadbands hold back. What a cycle could not broadcast is remembered, and the
next cycle blends on from there, so that the remembered offset grows until it leaves the band. -/
namespace FeeCycle

open Binary64 FallibleState RustFloat RustNumber

section Blend

variable {τ π : Type} {K : Kernel τ π} {c n : ℤ} {r : Float}

def IsPart (r : Float) : Prop := 0.0 ≤ r ∧ r ≤ 0.75

instance (r : Float) : Decidable (IsPart r) := inferInstanceAs (Decidable (_ ∧ _))

theorem targetBlendRatio_isPart (name : String) (woke : Bool) (std : Float) :
    IsPart (targetBlendRatio woke std (feeProfile K name).1 (feeProfile K name).2) := by
  have hactive : ∀ start ∈ ([0.20, 0.30, 0.45, 0.60] : List Float),
      IsPart start ∧ IsPart (minF64 start 0.15) := by decide
  have hconservative : ∀ start ∈ ([0.10, 0.30, 0.45, 0.60] : List Float),
      IsPart (minF64 start 0.20) ∧ IsPart (minF64 (minF64 start 0.20) 0.10) := by decide
  rw [feeProfile]
  split
  · have hstart : (if 200.0 ≤ std then conservativeProfile.sparseTargetBlendRatio
        else if 100.0 ≤ std then 0.30 else if 50.0 ≤ std then 0.45 else 0.60 : Float) ∈
          ([0.10, 0.30, 0.45, 0.60] : List Float) := by
      split_ifs <;> simp [conservativeProfile]
    obtain ⟨hnormal, hwoke⟩ := hconservative _ hstart
    cases woke with
    | false => exact hnormal
    | true => exact hwoke
  · have hstart : (if 200.0 ≤ std then activeProfile.sparseTargetBlendRatio
        else if 100.0 ≤ std then 0.30 else if 50.0 ≤ std then 0.45 else 0.60 : Float) ∈
          ([0.20, 0.30, 0.45, 0.60] : List Float) := by
      split_ifs <;> simp [activeProfile]
    obtain ⟨hnormal, hwoke⟩ := hactive _ hstart
    cases woke with
    | false => exact hnormal
    | true => exact hwoke

theorem denotes_zero : Denotes 0.0 (0 : ℝ) := by
  have hunpack : (0.0 : Float).toModel.unpack = .zero .positive := rfl
  rw [Denotes, hunpack]
  rfl

theorem denotes_threeQuarters : Denotes 0.75 (3 / 4 : ℝ) := by
  have hunpack : (0.75 : Float).toModel.unpack =
      .finite .positive 6755399441055744 (-53) (by decide) := rfl
  exact denotes_positive hunpack (by rw [zpow_neg]; norm_num)

theorem IsPart.exists_denotes (h : IsPart r) : ∃ ρ : ℝ, Denotes r ρ ∧ 0 ≤ ρ ∧ ρ ≤ 9 / 10 := by
  obtain ⟨v, hv⟩ := denotes_of_not_isNaN (isNaN_of_le h.1)
  have hlow := (le_iff denotes_zero hv).mp h.1
  have hhigh := (le_iff hv denotes_threeQuarters).mp h.2
  induction v using EReal.rec with
  | bot => exact absurd (le_bot_iff.mp hlow) (EReal.coe_ne_bot _)
  | coe ρ =>
    have hρ := EReal.coe_le_coe_iff.mp hhigh
    exact ⟨ρ, hv, EReal.coe_le_coe_iff.mp hlow, by linarith⟩
  | top => exact absurd (top_le_iff.mp hhigh) (EReal.coe_ne_top _)

theorem blendDelta_between (h : IsPart r) (hn : |n| ≤ 18446744073709551616) :
    (0 < n → 1 ≤ blendDelta n r ∧ blendDelta n r ≤ n) ∧
      (n < 0 → n ≤ blendDelta n r ∧ blendDelta n r ≤ -1) ∧ (n = 0 → blendDelta n r = 0) := by
  obtain ⟨ρ, hρ, hlow, hhigh⟩ := h.exists_denotes
  have hround := asI64_rounded_between hρ hlow hhigh hn
  rw [blendDelta]
  split_ifs <;> omega

end Blend

section Band

variable {τ π : Type} {K : Kernel τ π} {c n : ℤ}

theorem denotes_twentieth : Denotes 0.05 (7205759403792794 / 2 ^ 57 : ℝ) := by
  have hunpack : (0.05 : Float).toModel.unpack =
      .finite .positive 7205759403792794 (-57) (by decide) := rfl
  exact denotes_positive hunpack (by rw [zpow_neg, div_eq_mul_inv]; norm_num)

/-- The band around a fee, as the doubles compare it, is a twentieth of the fee. -/
theorem band_iff (hc : 1 ≤ c) (hsmall : c ≤ 4503599627370496) (hn : 0 ≤ n) :
    asF64 c * 0.05 < asF64 n ↔ c < 20 * n := by
  have hcR : (1 : ℝ) ≤ c := by exact_mod_cast hc
  have hcR' : (c : ℝ) ≤ 4503599627370496 := by exact_mod_cast hsmall
  have hexact : Denotes (asF64 c) (c : ℝ) := asF64_exact (abs_le.mpr (by omega))
  obtain ⟨v, hv, hband⟩ := denotes_mul hexact denotes_twentieth
  obtain ⟨w, hw, hround⟩ := denotes_asF64 n
  rw [lt_iff hv hw]
  constructor
  · intro hlt
    by_contra hge
    have hgrid : Grid (n : ℝ) := grid_int (abs_le.mpr (by omega))
    have hle : (20 : ℝ) * n ≤ c := by exact_mod_cast (by omega : 20 * n ≤ c)
    have hlow := hband.lower hgrid (by linarith)
    rw [hround.eq_of_grid hgrid] at hlt
    exact absurd hlow (not_le.mpr hlt)
  · intro hlt
    have hle : (c : ℝ) + 1 ≤ 20 * n := by exact_mod_cast (by omega : c + 1 ≤ 20 * n)
    by_cases hnear : n ≤ 281474976710656
    · -- a thirty-second below the integer there still is a double, and the product is below it
      have hgrid : Grid ((n : ℝ) - 1 / 32) := by
        refine ⟨32 * n - 1, -5, abs_le.mpr (by omega), by norm_num, by norm_num, ?_⟩
        push_cast
        norm_num
        ring
      have hhigh := hband.upper hgrid (by nlinarith)
      have hint : Grid (n : ℝ) := grid_int (abs_le.mpr (by omega))
      rw [hround.eq_of_grid hint]
      exact hhigh.trans_lt (EReal.coe_lt_coe_iff.mpr (by linarith))
    · have hgrid : Grid ((281474976710656 : ℤ) : ℝ) := grid_int (by norm_num)
      have hgrid' : Grid ((281474976710657 : ℤ) : ℝ) := grid_int (by norm_num)
      have hhigh := hband.upper hgrid (by push_cast; linarith)
      have hlow := hround.lower hgrid' (by exact_mod_cast (by omega : 281474976710657 ≤ n))
      refine hhigh.trans_lt (lt_of_lt_of_le ?_ hlow)
      exact EReal.coe_lt_coe_iff.mpr (by norm_num)

theorem denotes_sixteenth : Denotes 0.0625 (1 / 16 : ℝ) := by
  have hunpack : (0.0625 : Float).toModel.unpack =
      .finite .positive 4503599627370496 (-56) (by decide) := rfl
  exact denotes_positive hunpack (by rw [zpow_neg]; norm_num)

/-- A sixteenth or more of a fee, rounded up, is more than a twentieth of it. -/
theorem ceil_part_outside {r : Float} (hlow : 0.0625 ≤ r) (hhigh : r ≤ 0.75) (hc : 200 ≤ c)
    (hsmall : c ≤ 4503599627370496) : c < 20 * asI64 (ceilF64 (asF64 c * r)) := by
  have hcR : (200 : ℝ) ≤ c := by exact_mod_cast hc
  have hpart : IsPart r := ⟨le_trans_of_isNaN (by decide) (by decide) hlow, hhigh⟩
  obtain ⟨ρ, hρ, -, hρ'⟩ := hpart.exists_denotes
  have hsixteenth := EReal.coe_le_coe_iff.mp ((le_iff denotes_sixteenth hρ).mp hlow)
  have hexact : Denotes (asF64 c) (c : ℝ) := asF64_exact (abs_le.mpr (by omega))
  obtain ⟨v, hv, hmul⟩ := denotes_mul hexact hρ
  have hnext : (20 : ℝ) * (c / 20 + 1 : ℤ) ≤ c + 20 := by
    exact_mod_cast (by omega : 20 * (c / 20 + 1) ≤ c + 20)
  have hgrid : Grid ((c / 20 + 1 : ℤ) : ℝ) := grid_int (abs_le.mpr (by omega))
  have hgrid' : Grid (c : ℝ) := grid_int (abs_le.mpr (by omega))
  obtain ⟨b, rfl, hb, -⟩ := hmul.between hgrid hgrid' (by nlinarith) (by nlinarith)
  obtain ⟨w, hw, hwhole⟩ := denotes_ceilF64 hv
  have hstep : c / 20 + 1 ≤ w := hwhole.lower _ hb
  have hcast : c / 20 + 1 ≤ asI64 (ceilF64 (asF64 c * r)) :=
    le_asI64 hw (by exact_mod_cast hstep) (by omega)
  omega

theorem feeStepCap_outside (hc : 1 ≤ c) (hsmall : c ≤ 4503599627370496) (name : String)
    (woke : Bool) : c < 20 * feeStepCap c woke (feeProfile K name).2 := by
  have hcap : ∀ (minDelta : ℤ) (ratio : Float), 10 ≤ minDelta → 0.0625 ≤ ratio → ratio ≤ 0.75 →
      c < 20 * max minDelta (asI64 (ceilF64 (asF64 (max c 1) * ratio))) := by
    intro minDelta ratio hmin hlow hhigh
    by_cases hsmallFee : c < 200
    · omega
    · have hceil := ceil_part_outside hlow hhigh (not_lt.mp hsmallFee) hsmall
      rw [max_eq_left hc]
      omega
  rw [feeProfile]
  split
  · cases woke with
    | false => exact hcap 25 0.25 (by decide) (by decide) (by decide)
    | true => exact hcap 10 0.10 (by decide) (by decide) (by decide)
  · cases woke with
    | false => exact hcap 100 0.50 (by decide) (by decide) (by decide)
    | true => exact hcap 50 0.20 (by decide) (by decide) (by decide)

end Band

section Proposal

variable {ω τ π α : Type} {K : Kernel τ π} {d : CycleDeps ω τ π} {sc : Scene} {t : Target}

structure Proposes (sc : Scene) (before : ChannelCycleState) (t : Target) (bounded guarded : ℤ) :
    Prop where
  boundedTarget : t.boundedTargetPpm = some bounded
  blendedTarget : t.blendedTargetPpm = some guarded
  blended : t.zeroFlowGuardReason = none → ∃ sparse std, guarded =
    (blendFeeTarget (blendAnchor sc bounded before).1 bounded sc.wokeFromSleep sparse std
      sc.profileName sc.profile).1
  damped : t.newFeePpm =
    (applyDampedFeeTarget sc.currentFeePpm guarded sc.wokeFromSleep sc.profile).1

theorem blendAnchor_lastBroadcast (bounded : ℤ) (c : ChannelCycleState) :
    (blendAnchor sc bounded c).2.lastBroadcastFeePpm = c.lastBroadcastFeePpm := by
  rw [blendAnchor]
  dsimp only
  split
  · split
    · rfl
    · rfl
  · rfl

def Proposed (sc : Scene) (before : ChannelCycleState) (t : Target) (s : ChannelRun ω τ π) : Prop :=
  (∃ bounded guarded, Proposes sc before t bounded guarded) ∧
    s.cycle.lastBroadcastFeePpm = before.lastBroadcastFeePpm

theorem Proposed.congr {before before' : ChannelCycleState} {s : ChannelRun ω τ π}
    (hpending : before'.pendingTargetPpm = before.pendingTargetPpm)
    (hlast : before'.lastBroadcastFeePpm = before.lastBroadcastFeePpm)
    (h : Proposed sc before' t s) : Proposed sc before t s := by
  obtain ⟨⟨bounded, guarded, hbounded, hguarded, hblended, hdamped⟩, hbroadcast⟩ := h
  have hanchor : (blendAnchor sc bounded before').1 = (blendAnchor sc bounded before).1 := by
    simp only [blendAnchor, hpending, hlast]
    split
    · split
      · rfl
      · rfl
    · rfl
  rw [hanchor] at hblended
  exact ⟨⟨bounded, guarded, hbounded, hguarded, hblended, hdamped⟩, hbroadcast.trans hlast⟩

theorem guard_inactive {i : ZeroFlowInputs} (h : (applyZeroFlowRatchetGuard i).2 = none) :
    (applyZeroFlowRatchetGuard i).1 = i.targetFee := by
  have hactive : ¬ i.guardActive = true := fun hactive => by
    have hsome := guard_isSome_iff.mpr hactive
    rw [h] at hsome
    cases hsome
  rw [applyZeroFlowRatchetGuard, if_neg hactive]

theorem zeroFlowGuard_inactive (sig : Signal) (blended : ℤ) (capPpm : Option ℤ) (thompson : τ)
    (s : ChannelRun ω τ π) :
    wp (asking (zeroFlowGuard K.withRails d sc sig blended capPpm thompson))
      (Post.returns fun r u => Remembers s u ∧ (r.2 = none → r.1 = blended)) s := by
  apply returns_and (returns_of_within (remembers_asking _) s)
  apply returns_on
  apply returns_then
  intro earningNow w₁
  apply returns_then
  intro meaningfulNow w₂
  exact returns_pure guard_inactive

theorem Proposed.remembered {s₁ s₂ u : ChannelRun ω τ π} (hmemory : Remembers s₁ s₂)
    (h : Proposed sc s₂.cycle t u) : Proposed sc s₁.cycle t u :=
  h.congr (congrArg FeeMemory.pendingTargetPpm hmemory)
    (congrArg FeeMemory.lastBroadcastFeePpm hmemory)

theorem settleSample_proposes (sig : Signal) (dtsFee : ℤ) (p : Priced) (s : ChannelRun ω τ π) :
    wp (settleSample K.withRails d sc sig dtsFee p)
      (Post.returns fun t u => Proposed sc s.cycle t u) s := by
  apply returns_bind (f := fun a u =>
    a = (blendAnchor sc (max sc.rails.floorPpm (min sc.rails.ceilingPpm p.supported.postPid))
      s.cycle).1 ∧ u.cycle.lastBroadcastFeePpm = s.cycle.lastBroadcastFeePpm)
  · apply returns_of
    intro a u h
    cases h
    exact ⟨rfl, blendAnchor_lastBroadcast _ _⟩
  rintro anchor s₁ ⟨rfl, hlast⟩
  apply returns_read_bind
  apply returns_bind (zeroFlowGuard_inactive _ _ _ _ s₁)
  rintro ⟨guarded, guard⟩ s₂ ⟨hmemory, hguarded⟩
  apply returns_modify_bind
  apply returns_pure
  have hlast₂ : s₂.cycle.lastBroadcastFeePpm = s₁.cycle.lastBroadcastFeePpm :=
    congrArg FeeMemory.lastBroadcastFeePpm hmemory
  exact ⟨⟨_, guarded, rfl, rfl, fun hnone => ⟨_, _, hguarded hnone⟩, rfl⟩, hlast₂.trans hlast⟩

theorem sampleTarget_proposes (sig : Signal) (s : ChannelRun ω τ π) :
    wp (sampleTarget K.withRails d sc sig) (Post.returns fun t u => Proposed sc s.cycle t u) s := by
  have hdiscount :
      Within Remembers (discount K.withRails sc sig.sparse : OnChannel ω τ π Unit) := by
    apply remembers_modify
    intro s
    dsimp only
    split
    · rfl
    · rfl
  apply returns_bind (returns_of_within hdiscount s)
  intro _ s₁ h₁
  apply returns_bind (returns_of_within (remembers_learning _) s₁)
  intro sampled s₂ h₂
  apply returns_modify_bind
  apply returns_bind (returns_of_within (remembers_learning _) _)
  intro priced s₃ h₃
  apply returns_mono (settleSample_proposes sig sampled.dtsFee priced s₃)
  intro t u h
  exact h.remembered (h₃.trans (h₂.trans h₁))

theorem dtsTarget_proposes (s : ChannelRun ω τ π) :
    wp (dtsTarget K.withRails d sc)
      (Post.returns fun r u => ∀ t ∈ r, Proposed sc s.cycle t u) s := by
  apply returns_read_bind
  apply returns_modify_bind
  apply returns_bind (returns_of_within (recordWindow_remembers _ _) _)
  intro _ s₁ h₁
  apply returns_ite
  · intro _
    apply returns_modify_bind
    exact returns_pure (by simp)
  · intro _
    apply returns_bind (sampleTarget_proposes _ s₁)
    intro t u h
    apply returns_pure
    simpa using h.remembered h₁

/-- Without congestion and exploration the target is a sampled one. -/
theorem decideTarget_proposes (hcongested : sc.isCongested = false)
    (hexploring : sc.isUnderExploration = false) (s : ChannelRun ω τ π) :
    wp (decideTarget K.withRails d sc)
      (Post.returns fun r u => ∀ t ∈ r, Proposed sc s.cycle t u) s := by
  have hpending : (countQuiet s.cycle).pendingTargetPpm = s.cycle.pendingTargetPpm := by
    rw [countQuiet]
    split_ifs <;> rfl
  have hlast : (countQuiet s.cycle).lastBroadcastFeePpm = s.cycle.lastBroadcastFeePpm := by
    rw [countQuiet]
    split_ifs <;> rfl
  apply returns_ite
  · intro h
    rw [hcongested] at h
    cases h
  · intro _
    apply returns_modify_bind
    apply returns_ite
    · intro h
      rw [hexploring] at h
      cases h
    · intro _
      apply returns_mono (dtsTarget_proposes _)
      exact fun r u h t ht => (h t ht).congr hpending hlast

end Proposal

section Hold

variable {ω τ π α : Type} {K : Kernel τ π} {d : CycleDeps ω τ π} {sc : Scene} {t : Target}

def HeldBack (K : Kernel τ π) (d : CycleDeps ω τ π) (sc : Scene) (t : Target)
    (c : ChannelCycleState) : Prop :=
  withinAlphaGuard K d sc t = true ∨
    significantChange sc t c = false ∧ channelPolicyChange K d sc = false

def SamePending (s t : ChannelRun ω τ π) : Prop :=
  t.cycle.pendingTargetPpm = s.cycle.pendingTargetPpm

instance : IsPreorder (ChannelRun ω τ π) SamePending where
  refl _ := rfl
  trans _ _ _ h k := k.trans h

theorem holdOrRefresh_samePending {hold : ChannelRun ω τ π → ChannelRun ω τ π}
    (hhold : ∀ s, SamePending s (hold s)) (row : ChannelStateRow) (currentFeePpm now : ℤ) :
    Within SamePending (holdOrRefresh d row currentFeePpm now hold) :=
  holdOrRefresh_within (fun _ _ => rfl) (fun _ _ _ => rfl) hhold row currentFeePpm now

theorem settle_pends {s : ChannelRun ω τ π} (h : HeldBack K d sc t s.cycle) :
    wp (settle K d sc t) (Post.returns fun _ u => u.cycle.pendingTargetPpm =
      if t.newFeePpm ≠ sc.currentFeePpm then t.newFeePpm else 0) s := by
  apply returns_read_bind
  apply returns_ite
  · intro _
    apply returns_modify_bind
    have hhold : ∀ s : ChannelRun ω τ π, SamePending s (restartTimer sc s) := fun _ => rfl
    exact returns_of_within (holdOrRefresh_samePending hhold _ _ _) (pendTarget sc t s)
  · intro halpha
    apply returns_ite
    · intro _
      apply returns_modify_bind
      have hhold : ∀ s : ChannelRun ω τ π, SamePending s (suppressGossip sc t s) := fun _ => rfl
      exact returns_of_within (holdOrRefresh_samePending hhold _ _ _) (pendTarget sc t s)
    · intro hopen
      obtain ⟨hsignificant, hpolicy⟩ := h.resolve_left halpha
      rw [hsignificant, hpolicy] at hopen
      exact absurd rfl hopen

end Hold

section Offset

variable {τ π : Type} {K : Kernel τ π} {sc : Scene} {before : ChannelCycleState}
  {c bounded anchor : ℤ}

def Outside (c bounded : ℤ) : Prop := c < 20 * |bounded - c|

/-- How far the remembered target is from the fee; zero and less stand for none. -/
def pendingOffset (c pending : ℤ) : ℤ := if 0 < pending then |pending - c| else 0

theorem blendAnchor_between (hcurrent : sc.currentFeePpm = c) :
    (blendAnchor sc bounded before).1 ∈ Set.uIcc c bounded := by
  rw [blendAnchor, hcurrent]
  dsimp only
  split_ifs with hpending hreset
  · exact Set.left_mem_uIcc
  · simp only [Bool.or_eq_true, Bool.not_eq_true', Bool.and_eq_false_imp, not_or] at hreset
    rw [Set.mem_uIcc]
    grind
  · exact Set.left_mem_uIcc

/-- A remembered target on the way to the new one is where the blend starts, or the rails move it
further on. -/
theorem blendAnchor_offset (hcurrent : sc.currentFeePpm = c) (hc : 1 ≤ c)
    (hsmall : c ≤ 4503599627370496) (hbroadcast : before.lastBroadcastFeePpm = c)
    (hrails : sc.rails.floorPpm ≤ bounded ∧ bounded ≤ sc.rails.ceilingPpm)
    (houtside : Outside c bounded)
    (hway : 0 < before.pendingTargetPpm → before.pendingTargetPpm ∈ Set.uIcc c bounded) :
    pendingOffset c before.pendingTargetPpm ≤ |(blendAnchor sc bounded before).1 - c| := by
  rw [pendingOffset]
  split
  · rename_i hpending
    have hon := Set.mem_uIcc.mp (hway hpending)
    have hband : ¬ asF64 |bounded - c| ≤ asF64 c * 0.05 :=
      not_le_of_lt ((band_iff hc hsmall (abs_nonneg _)).mpr houtside)
    have hpath : min c bounded ≤ max sc.rails.floorPpm (min sc.rails.ceilingPpm
        before.pendingTargetPpm) ∧ max sc.rails.floorPpm (min sc.rails.ceilingPpm
        before.pendingTargetPpm) ≤ max c bounded := by omega
    have hanchor : (blendAnchor sc bounded before).1 =
        max sc.rails.floorPpm (min sc.rails.ceilingPpm before.pendingTargetPpm) := by
      simp [blendAnchor, hpending, hcurrent, hbroadcast, hband, hpath]
    rw [hanchor, abs_eq_max_neg, abs_eq_max_neg]
    omega
  · exact abs_nonneg _

/-- The blend leaves its anchor towards the target, without reaching past it. -/
theorem blendFeeTarget_between (hanchor : anchor ∈ Set.uIcc c bounded)
    (hc : InI64 c) (hbounded : InI64 bounded) (woke sparse : Bool) (std : Float) (name : String) :
    let blended := (blendFeeTarget anchor bounded woke sparse std (feeProfile K name).1
      (feeProfile K name).2).1
    blended ∈ Set.uIcc c bounded ∧ (blended = bounded ∨ |anchor - c| < |blended - c|) := by
  obtain ⟨hcmin, hcmax⟩ := hc
  obtain ⟨hbmin, hbmax⟩ := hbounded
  rw [Set.mem_uIcc] at hanchor
  have hfar : |bounded - anchor| ≤ 18446744073709551616 := abs_le.mpr (by omega)
  obtain ⟨hup, hdown, hstay⟩ := blendDelta_between
    (targetBlendRatio_isPart (K := K) name woke std) hfar
  intro blended
  have hblended : blended = anchor + blendDelta (bounded - anchor)
    (targetBlendRatio woke std (feeProfile K name).1 (feeProfile K name).2) := rfl
  rw [Set.mem_uIcc, abs_eq_max_neg, abs_eq_max_neg]
  omega

/-- Damping keeps a blended target on its way; where it cuts one short, it does so outside of the
band. -/
theorem applyDampedFeeTarget_cases (fee : ℤ) (hc : 1 ≤ c) (hsmall : c ≤ 4503599627370496)
    (name : String) (woke : Bool) :
    (applyDampedFeeTarget c fee woke (feeProfile K name).2).1 = fee ∨
      Outside c (applyDampedFeeTarget c fee woke (feeProfile K name).2).1 := by
  have hcap := feeStepCap_outside (K := K) hc hsmall name woke
  rw [applyDampedFeeTarget]
  split
  · right
    rw [Outside, abs_eq_max_neg]
    dsimp only
    split <;> omega
  · exact .inl rfl

end Offset

section Cycles

variable {ω τ π : Type} {K : Kernel τ π} {c : ℤ}

/-- A cycle that decides by the sample on a channel whose fee on the chain is the last one that was
broadcast, while the guard against ratcheting is not active. -/
structure SampledCycle (ω : Type) (K : Kernel τ π) (c : ℤ) where
  deps : CycleDeps ω τ π
  ctx : AdjustCtx
  vegas : VegasReflexState
  now : ℤ
  before : ChannelRun ω τ π
  scene : Scene
  opened : ChannelRun ω τ π
  target : Target
  decided : ChannelRun ω τ π
  result : AdjustResult
  after : ChannelRun ω τ π
  bounded : ℤ
  opens : Opens K.withRails deps ctx vegas false false now before scene opened
  decides : decideTarget K.withRails deps scene opened = (.ok (some target), decided)
  settles : settle K.withRails deps scene target decided = (.ok result, after)
  onChain : ctx.info.feeProportionalMillionths = c
  broadcast : before.cycle.lastBroadcastFeePpm = c
  unguarded : target.zeroFlowGuardReason = none
  boundedTarget : target.boundedTargetPpm = some bounded
  inRails : scene.rails.floorPpm ≤ bounded ∧ bounded ≤ scene.rails.ceilingPpm
  inI64 : InI64 bounded

namespace SampledCycle

variable (x : SampledCycle ω K c)

theorem adjusts : adjustChannel K.withRails x.deps x.ctx x.vegas false false x.now x.before =
    (.ok x.result, x.after) := x.opens.adjusts x.decides x.settles

def Held : Prop := HeldBack K.withRails x.deps x.scene x.target x.decided.cycle

def pendingBefore : ℤ := x.before.cycle.pendingTargetPpm
def pendingAfter : ℤ := x.after.cycle.pendingTargetPpm

/-- Neither the blended nor the damped value passes the bounded target. -/
def StaysOnTheWay : Prop :=
  (∀ blended ∈ x.target.blendedTargetPpm, blended ∈ Set.uIcc c x.bounded) ∧
    x.target.newFeePpm ∈ Set.uIcc c x.bounded

def StartsOnTheWay : Prop := 0 < x.pendingBefore → x.pendingBefore ∈ Set.uIcc c x.bounded

theorem scene_currentFee (hc : 1 ≤ c) : x.scene.currentFeePpm = c ∧ x.scene.rawChainFee = c := by
  obtain ⟨woke, s₁, obs, s₂, r, -, -, -, hscene⟩ := x.opens
  have hraw := x.onChain
  have hstart : startingFee x.deps.cfg x.ctx false = c := by
    rw [startingFee, hraw, if_neg (by omega)]
  rw [hscene]
  exact ⟨hstart, hraw⟩

theorem scene_profile : ∃ name, x.scene.profileName = (feeProfile K.withRails name).1 ∧
    x.scene.profile = (feeProfile K.withRails name).2 := by
  obtain ⟨woke, s₁, obs, s₂, r, -, -, -, hscene⟩ := x.opens
  rw [hscene]
  exact ⟨_, rfl, rfl⟩

theorem proposes : (∃ guarded, Proposes x.scene x.before.cycle x.target x.bounded guarded) ∧
    x.decided.cycle.lastBroadcastFeePpm = c := by
  have hsampled : x.scene.isCongested = false ∧ x.scene.isUnderExploration = false := by
    obtain ⟨woke, s₁, obs, s₂, r, -, -, -, hscene⟩ := x.opens
    rw [hscene]
    exact ⟨rfl, rfl⟩
  have h := (returned (decideTarget_proposes hsampled.1 hsampled.2 x.opened) x.decides _ rfl)
  obtain ⟨⟨bounded, guarded, hproposes⟩, hlast⟩ := h.remembered x.opens.remembers
  obtain rfl : bounded = x.bounded := by
    have hsame := hproposes.boundedTarget.symm.trans x.boundedTarget
    exact Option.some.inj hsame
  exact ⟨⟨guarded, hproposes⟩, hlast.trans x.broadcast⟩

/-- The blended value is the target of the damping, and leaves its anchor towards the bound. -/
theorem blended (hc : 1 ≤ c) (hi : InI64 c) : ∃ blended woke name,
    x.target.blendedTargetPpm = some blended ∧
    x.target.newFeePpm = (applyDampedFeeTarget c blended woke (feeProfile K.withRails name).2).1 ∧
    blended ∈ Set.uIcc c x.bounded ∧ (x.bounded ≠ c → blended ≠ c) ∧
    (Outside c x.bounded → c ≤ 4503599627370496 → x.StartsOnTheWay → blended = x.bounded ∨
      pendingOffset c x.pendingBefore < |blended - c|) := by
  obtain ⟨⟨guarded, hproposes⟩, -⟩ := x.proposes
  obtain ⟨hcurrent, -⟩ := x.scene_currentFee hc
  obtain ⟨name, hname, hprofile⟩ := x.scene_profile
  obtain ⟨sparse, std, hblended⟩ := hproposes.blended x.unguarded
  have hdamped := hproposes.damped
  rw [hcurrent, hprofile] at hdamped
  rw [hname, hprofile] at hblended
  have hanchor : (blendAnchor x.scene x.bounded x.before.cycle).1 ∈ Set.uIcc c x.bounded :=
    blendAnchor_between hcurrent
  obtain ⟨hway, hgrows⟩ := blendFeeTarget_between (K := K.withRails) hanchor hi x.inI64
    x.scene.wokeFromSleep sparse std name
  rw [← hblended] at hway hgrows
  have hmoves : x.bounded ≠ c → guarded ≠ c := by
    rintro hne rfl
    rcases hgrows with hmeets | hlt
    · exact hne hmeets.symm
    · rw [sub_self, abs_zero] at hlt
      exact absurd hlt (not_lt.mpr (abs_nonneg _))
  refine ⟨guarded, _, name, hproposes.blendedTarget, hdamped, hway, hmoves, ?_⟩
  intro houtside hsmall hstart
  have hoffset := blendAnchor_offset hcurrent hc hsmall x.broadcast x.inRails houtside hstart
  exact hgrows.imp_right hoffset.trans_lt

theorem staysOnTheWay (hc : 1 ≤ c) (hi : InI64 c) : x.StaysOnTheWay := by
  obtain ⟨blended, woke, name, hblended, hdamped, hway, -, -⟩ := x.blended hc hi
  have hbetween : min c blended ≤ x.target.newFeePpm ∧ x.target.newFeePpm ≤ max c blended := by
    rw [hdamped]
    exact applyDampedFeeTarget_between (feeProfile_moves K.withRails name)
  constructor
  · intro b hb
    rw [hblended] at hb
    cases hb
    exact hway
  · rw [Set.mem_uIcc] at hway ⊢
    omega

theorem Held.within {x : SampledCycle ω K c} (h : x.Held) (hc : 1 ≤ c)
    (hsmall : c ≤ 4503599627370496) : 20 * |x.target.newFeePpm - c| ≤ c := by
  obtain ⟨hcurrent, hraw⟩ := x.scene_currentFee hc
  rcases h with halpha | ⟨hquiet, -⟩
  · simp only [withinAlphaGuard, hcurrent, Bool.and_eq_true, decide_eq_true_eq] at halpha
    have hmin := halpha.1.1.1
    rw [minChange] at hmin
    split at hmin
    · omega
    · omega
  · simp only [significantChange, Bool.or_eq_false_iff, decide_eq_false_iff_not] at hquiet
    have hband := hquiet.1.1.1
    rw [x.proposes.2, band_iff hc hsmall (abs_nonneg _)] at hband
    omega

theorem Held.pendingAfter {x : SampledCycle ω K c} (h : x.Held) (hc : 1 ≤ c) : x.pendingAfter =
    if x.target.newFeePpm ≠ c then x.target.newFeePpm else 0 := by
  have hpends := returned (settle_pends h) x.settles
  rw [(x.scene_currentFee hc).1] at hpends
  exact hpends

/-- A held cycle remembers a target further out than the one before, within the band and on the
way to the bounded target. -/
theorem Held.grows {x : SampledCycle ω K c} (h : x.Held) (hc : 1 ≤ c)
    (hsmall : c ≤ 4503599627370496) (houtside : Outside c x.bounded) :
    0 < x.pendingAfter ∧ x.pendingAfter ∈ Set.uIcc c x.bounded ∧
      20 * pendingOffset c x.pendingAfter ≤ c ∧ 0 < pendingOffset c x.pendingAfter ∧
      (x.StartsOnTheWay → pendingOffset c x.pendingBefore < pendingOffset c x.pendingAfter) := by
  have hi : InI64 c := ⟨by omega, by omega⟩
  have hwithin := h.within hc hsmall
  have hpending := h.pendingAfter hc
  obtain ⟨blended, woke, name, -, hdamped, hway, hmoves, hgrows⟩ := x.blended hc hi
  have hkept : x.target.newFeePpm = blended := by
    rcases applyDampedFeeTarget_cases (K := K.withRails) blended hc hsmall name woke with
      hsame | hout
    · exact hdamped.trans hsame
    · rw [← hdamped, Outside] at hout
      omega
  rw [hkept] at hwithin hpending
  rw [Outside, abs_eq_max_neg] at houtside
  have hne : blended ≠ c := hmoves (by omega)
  rw [if_pos hne] at hpending
  rw [abs_eq_max_neg] at hwithin
  have hpos : 0 < blended := by omega
  have hoffset : pendingOffset c blended = |blended - c| := if_pos hpos
  rw [hpending, hoffset]
  refine ⟨hpos, hway, ?_, abs_pos.mpr (sub_ne_zero.mpr hne), ?_⟩
  · rw [abs_eq_max_neg]
    omega
  · intro hstart
    refine (hgrows ?_ hsmall hstart).resolve_left ?_
    · rw [Outside, abs_eq_max_neg]
      omega
    · rintro rfl
      omega

end SampledCycle

section Runs

variable {xs : List (SampledCycle ω K c)}

def Follows (a b : SampledCycle ω K c) : Prop := b.pendingBefore = a.pendingAfter

/-- Every bounded target of the run is outside of the band, on one side of the fee. -/
def OneSided (xs : List (SampledCycle ω K c)) : Prop :=
  (∀ x ∈ xs, Outside c x.bounded) ∧ ((∀ x ∈ xs, c < x.bounded) ∨ ∀ x ∈ xs, x.bounded < c)

theorem OneSided.tail {x : SampledCycle ω K c} (h : OneSided (x :: xs)) : OneSided xs := by
  obtain ⟨hout, hside⟩ := h
  refine ⟨fun y hy => hout y (List.mem_cons_of_mem x hy), hside.imp ?_ ?_⟩
  · exact fun habove y hy => habove y (List.mem_cons_of_mem x hy)
  · exact fun hbelow y hy => hbelow y (List.mem_cons_of_mem x hy)

theorem SampledCycle.Held.startsNext {a b : SampledCycle ω K c} (h : a.Held) (hc : 1 ≤ c)
    (hsmall : c ≤ 4503599627370496) (hside : OneSided [a, b]) (hfollows : Follows a b) :
    b.StartsOnTheWay := by
  obtain ⟨hout, hsides⟩ := hside
  have houta := hout a (by simp)
  have houtb := hout b (by simp)
  obtain ⟨hpos, hway, hband, -, -⟩ := h.grows hc hsmall houta
  intro _
  rw [hfollows]
  rw [pendingOffset, if_pos hpos, abs_eq_max_neg] at hband
  rw [Outside, abs_eq_max_neg] at houtb
  rw [Set.mem_uIcc] at hway ⊢
  rcases hsides with habove | hbelow
  · have ha := habove a (by simp)
    have hb := habove b (by simp)
    omega
  · have ha := hbelow a (by simp)
    have hb := hbelow b (by simp)
    omega

theorem held_offsets_grow (hc : 1 ≤ c) (hsmall : c ≤ 4503599627370496) (hrun : xs.IsChain Follows)
    (hside : OneSided xs) (hheld : ∀ x ∈ xs, x.Held) :
    (xs.map fun x => pendingOffset c x.pendingAfter).IsChain (· < ·) := by
  induction xs with
  | nil => exact .nil
  | cons a rest ih =>
    cases rest with
    | nil => exact .singleton _
    | cons b rest =>
      rw [List.isChain_cons_cons] at hrun
      obtain ⟨hfollows, hrest⟩ := hrun
      have ha := hheld a (by simp)
      have hb := hheld b (by simp)
      have hpair : OneSided [a, b] := by
        obtain ⟨hout, hsides⟩ := hside
        refine ⟨fun x hx => hout x (by simp at hx ⊢; tauto), hsides.imp ?_ ?_⟩
        · exact fun habove x hx => habove x (by simp at hx ⊢; tauto)
        · exact fun hbelow x hx => hbelow x (by simp at hx ⊢; tauto)
      have hstart := ha.startsNext hc hsmall hpair hfollows
      have hout := hside.1 b (by simp)
      obtain ⟨-, -, -, -, hgrows⟩ := hb.grows hc hsmall hout
      have hlt := hgrows hstart
      rw [hfollows] at hlt
      rw [List.map_cons, List.map_cons, List.isChain_cons_cons]
      refine ⟨hlt, ?_⟩
      exact ih hrest hside.tail fun x hx => hheld x (List.mem_cons_of_mem a hx)

theorem length_le_of_growing {offsets : List ℤ} {bound : ℤ} (h : offsets.IsChain (· < ·))
    (hbounds : ∀ n ∈ offsets, 0 < n ∧ n ≤ bound) : (offsets.length : ℤ) ≤ max bound 0 := by
  have hnodup : offsets.Nodup := (List.isChain_iff_pairwise.mp h).imp fun hlt => hlt.ne
  have hsubset : offsets.toFinset ⊆ Finset.Icc 1 bound := by
    intro n hn
    have hn' := hbounds n (List.mem_toFinset.mp hn)
    exact Finset.mem_Icc.mpr ⟨by omega, hn'.2⟩
  have hcard := Finset.card_le_card hsubset
  rw [List.toFinset_card_of_nodup hnodup, Int.card_Icc] at hcard
  omega

theorem held_run_length (hc : 1 ≤ c) (hsmall : c ≤ 4503599627370496) (hrun : xs.IsChain Follows)
    (hside : OneSided xs) (hheld : ∀ x ∈ xs, x.Held) : (xs.length : ℤ) ≤ c / 20 := by
  have hgrowing := held_offsets_grow hc hsmall hrun hside hheld
  have hbounds : ∀ n ∈ xs.map fun x => pendingOffset c x.pendingAfter, 0 < n ∧ n ≤ c / 20 := by
    intro n hn
    obtain ⟨x, hx, rfl⟩ := List.mem_map.mp hn
    obtain ⟨-, -, hband, hpos, -⟩ := (hheld x hx).grows hc hsmall (hside.1 x hx)
    exact ⟨hpos, by omega⟩
  have hlength := length_le_of_growing hgrowing hbounds
  rw [List.length_map] at hlength
  omega

end Runs

end Cycles

section Release

variable {τ π : Type}

/-- Suppressed targets are always released. -/
theorem suppressed_targets_are_released (ω : Type) (K : Kernel τ π) {c : ℤ} (hc : 1 ≤ c)
    (hsmall : c ≤ 4503599627370496) :
    (∀ x : SampledCycle ω K c, x.StaysOnTheWay) ∧
    (∀ x : SampledCycle ω K c, Outside c x.bounded → x.Held → x.StartsOnTheWay →
      pendingOffset c x.pendingBefore < pendingOffset c x.pendingAfter) ∧
    ∀ xs : List (SampledCycle ω K c), xs.IsChain Follows → OneSided xs → (∀ x ∈ xs, x.Held) →
      (xs.map fun x => pendingOffset c x.pendingAfter).Pairwise (· < ·) ∧
        (xs.length : ℤ) ≤ c / 20 := by
  refine ⟨fun x => x.staysOnTheWay hc ⟨by omega, by omega⟩, ?_, ?_⟩
  · intro x hout hheld
    exact (hheld.grows hc hsmall hout).2.2.2.2
  · intro xs hrun hside hheld
    exact ⟨List.isChain_iff_pairwise.mp (held_offsets_grow hc hsmall hrun hside hheld),
      held_run_length hc hsmall hrun hside hheld⟩

end Release

section Samples

instance {ω τ π : Type} (K : Kernel τ π) (d : CycleDeps ω τ π) (sc : Scene) (t : Target)
    (c : ChannelCycleState) : Decidable (HeldBack K d sc t c) :=
  inferInstanceAs (Decidable (_ ∨ _))

instance {ω τ π : Type} {K : Kernel τ π} {c : ℤ} (x : SampledCycle ω K c) : Decidable x.Held :=
  inferInstanceAs (Decidable (HeldBack _ _ _ _ _))

def wideKernel : Kernel Unit Unit := { plainKernel with posteriorStd := fun _ => 300.0 }

def askingDeps (fee : ℤ) : CycleDeps Unit Unit Unit :=
  { refreshDeps 100 with sampleFeeContextual := fun t _ _ _ w => (.ok fee, t, w) }

def thousandCtx : AdjustCtx :=
  { refreshCtx with info := { refreshCtx.info with feeProportionalMillionths := 1000 } }

def thousandRun (pending : ℤ) : ChannelRun Unit Unit Unit where
  cycle :=
    { ChannelCycleState.default with lastBroadcastFeePpm := 1000, pendingTargetPpm := pending }
  fee := .default () ()
  world := .fresh ()

def heldCycle? (pending fee : ℤ) : Option (SampledCycle Unit wideKernel 1000) :=
  let K := wideKernel.withRails
  let d := askingDeps fee
  match hslept : sleepCheck d thousandCtx false 200000 (thousandRun pending) with
  | (.ok (some woke), s₁) =>
    match hobserved : observe d thousandCtx (feeProfile K d.cfg.feeProfile).2 200000 s₁ with
    | (.ok (some obs), s₂) =>
      match hrails : asking (rails K d thousandCtx .default (startingFee d.cfg thousandCtx false)
          200000) s₂ with
      | (.ok r, s₃) =>
        let sc := scene K d thousandCtx false false (startingFee d.cfg thousandCtx false) 200000
          woke obs r (thousandRun pending).cycle
        match hdecides : decideTarget K d sc s₃ with
        | (.ok (some t), s₄) =>
          match hsettles : settle K d sc t s₄ with
          | (.ok result, s₅) =>
            match hbounded : t.boundedTargetPpm with
            | some bounded =>
              if h : t.zeroFlowGuardReason = none ∧
                  (sc.rails.floorPpm ≤ bounded ∧ bounded ≤ sc.rails.ceilingPpm) ∧ InI64 bounded then
                some
                  { deps := d, ctx := thousandCtx, vegas := .default, now := 200000
                    before := thousandRun pending, scene := sc, opened := s₃, target := t
                    decided := s₄, result := result, after := s₅, bounded := bounded
                    opens := ⟨woke, s₁, obs, s₂, r, hslept, hobserved, hrails, rfl⟩
                    decides := hdecides
                    settles := hsettles
                    onChain := rfl
                    broadcast := rfl
                    unguarded := h.1
                    boundedTarget := hbounded
                    inRails := h.2.1
                    inI64 := h.2.2 }
              else none
            | none => none
          | _ => none
        | _ => none
      | _ => none
    | _ => none
  | _ => none

def heldPending (pending fee : ℤ) : Option (ℤ × ℤ × ℤ) :=
  match heldCycle? pending fee with
  | some x => if x.Held then some (x.pendingBefore, x.pendingAfter, x.bounded) else none
  | none => none

theorem exists_held {pending fee before after bounded : ℤ}
    (h : heldPending pending fee = some (before, after, bounded)) :
    ∃ x : SampledCycle Unit wideKernel 1000, x.Held ∧ x.pendingBefore = before ∧
      x.pendingAfter = after ∧ x.bounded = bounded := by
  unfold heldPending at h
  split at h
  · rename_i x hx
    by_cases hheld : x.Held
    · rw [if_pos hheld] at h
      cases h
      exact ⟨x, hheld, rfl, rfl, rfl⟩
    · rw [if_neg hheld] at h
      cases h
  · cases h

/-- Two held cycles in a row, towards 1060. -/
theorem suppressed_targets_are_released_thousand :
    ∃ x y : SampledCycle Unit wideKernel 1000, Follows x y ∧ x.Held ∧ y.Held ∧
      ([x, y].map fun z => pendingOffset 1000 z.pendingAfter).Pairwise (· < ·) := by
  have hfirst : heldPending 0 1060 = some (0, 1012, 1060) := by decide +kernel
  have hsecond : heldPending 1012 1060 = some (1012, 1022, 1060) := by decide +kernel
  obtain ⟨x, hx, -, hafter, hxb⟩ := exists_held hfirst
  obtain ⟨y, hy, hbefore, -, hyb⟩ := exists_held hsecond
  have hfollows : Follows x y := hbefore.trans hafter.symm
  have hside : OneSided [x, y] := by
    refine ⟨?_, .inl ?_⟩
    · simp [hxb, hyb, Outside]
    · simp [hxb, hyb]
  have hheld : ∀ z ∈ [x, y], z.Held := by simp [hx, hy]
  refine ⟨x, y, hfollows, hx, hy, ?_⟩
  exact ((suppressed_targets_are_released Unit wideKernel (by decide) (by decide)).2.2 [x, y]
    (.cons_cons hfollows (.singleton y)) hside hheld).1

/-- A target left below the fee is dropped when the targets turn upward, and what the blend then
reaches may be nearer. -/
theorem stale_pending_shrinks : ¬ ∀ (c : ℤ) (x : SampledCycle Unit wideKernel c), 1 ≤ c →
    Outside c x.bounded → x.Held → |x.pendingBefore - c| < |x.pendingAfter - c| := by
  intro h
  have hstale : heldPending 970 1060 = some (970, 1012, 1060) := by decide +kernel
  obtain ⟨x, hx, hbefore, hafter, hbounded⟩ := exists_held hstale
  have hgrows := h 1000 x (by decide) (by rw [hbounded, Outside]; decide) hx
  rw [hbefore, hafter] at hgrows
  exact absurd hgrows (by decide)

end Samples

end FeeCycle
