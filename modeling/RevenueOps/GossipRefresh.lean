import RevenueOps.FeeActions

/-! The gossip refresh as a nudge. It is clamped by the configured limits alone, while the current
fee may lie under them (a saturated channel has a lower minimum) or over them (a lowered maximum);
there the clamp moves the fee by more than the one ppm that makes the gossip fresh. -/
namespace FeeCycle

open FallibleState KeyedTable PeerPolicies RustNumber

variable {ω τ π α β : Type} {K : Kernel τ π} {d : CycleDeps ω τ π}

def Executor.Decides (cfg : FeeCfgSnapshot) : Executor ω → Prop
  | .recording => True
  | .other execute => ∀ request decision, Answered (execute request cfg) decision →
      decision.clampedFeePpm = request.fee cfg

structure FeeCfgSnapshot.Ordered (cfg : FeeCfgSnapshot) : Prop where
  minNonneg : 0 ≤ cfg.minFeePpm
  minLeMax : cfg.minFeePpm ≤ cfg.maxFeePpm
  maxLe : cfg.maxFeePpm ≤ 100000

instance (cfg : FeeCfgSnapshot) : Decidable cfg.Ordered :=
  decidable_of_iff (0 ≤ cfg.minFeePpm ∧ cfg.minFeePpm ≤ cfg.maxFeePpm ∧ cfg.maxFeePpm ≤ 100000)
    ⟨fun h => ⟨h.1, h.2.1, h.2.2⟩, fun h => ⟨h.1, h.2, h.3⟩⟩

section Nudge

variable {cfg : FeeCfgSnapshot} {current nudge : ℤ}

theorem nudgeFee_cases (h : nudgeFee cfg current = some nudge) :
    nudge ≠ current ∧ (nudge = max cfg.minFeePpm (min cfg.maxFeePpm (current + 1)) ∨
      (max cfg.minFeePpm (min cfg.maxFeePpm (current + 1)) = current ∧
        nudge = max cfg.minFeePpm (min cfg.maxFeePpm (current - 1)))) := by
  simp only [nudgeFee, List.map_cons, List.map_nil, List.find?_cons, List.find?_nil] at h
  by_cases hup : max cfg.minFeePpm (min cfg.maxFeePpm (current + 1)) = current
  · by_cases hdown : max cfg.minFeePpm (min cfg.maxFeePpm (current - 1)) = current
    · simp [hup, hdown] at h
    · simp only [hup, hdown, ne_eq, not_true_eq_false, decide_false, not_false_eq_true,
        decide_true, Option.some.injEq] at h
      exact ⟨h ▸ hdown, .inr ⟨hup, h.symm⟩⟩
  · simp only [hup, ne_eq, not_false_eq_true, decide_true, Option.some.injEq] at h
    exact ⟨h ▸ hup, .inl h.symm⟩

theorem nudgeFee_bounds (hcfg : cfg.Ordered) (h : nudgeFee cfg current = some nudge) :
    cfg.minFeePpm ≤ nudge ∧ nudge ≤ cfg.maxFeePpm := by
  have hle := hcfg.minLeMax
  obtain ⟨-, rfl | ⟨-, rfl⟩⟩ := nudgeFee_cases h <;> omega

/-- The nudge is one ppm exactly where the current fee is at most one outside the limits. -/
theorem nudgeFee_step_iff (hcfg : cfg.Ordered) (h : nudgeFee cfg current = some nudge) :
    |nudge - current| = 1 ↔ cfg.minFeePpm ≤ current + 1 ∧ current ≤ cfg.maxFeePpm + 1 := by
  have hle := hcfg.minLeMax
  rw [abs_eq (by omega)]
  obtain ⟨hne, hn | ⟨hup, hn⟩⟩ := nudgeFee_cases h
  · omega
  · omega

theorem refreshRequest_fee (hcfg : cfg.Ordered) (h : nudgeFee cfg current = some nudge)
    (channelId : String) : (refreshRequest cfg channelId nudge current).fee cfg = nudge := by
  obtain ⟨hmin, hle, hmax⟩ := hcfg
  obtain ⟨hlo, hhi⟩ := nudgeFee_bounds ⟨hmin, hle, hmax⟩ h
  simp only [FeeExecutionRequest.fee, refreshRequest, feeExecutionRequest, clampFee, econMinFeePpm,
    absMinFeePpm, absMaxFeePpm, if_true]
  omega

theorem effectiveMin_le (cfg : FeeCfgSnapshot) (flowState : String) (outboundRatio : Float)
    (capacitySats : ℤ) (window : Option FlowWindow) :
    effectiveMinFeePpm cfg flowState outboundRatio capacitySats window ≤ cfg.minFeePpm := by
  rw [effectiveMinFeePpm]
  split
  · exact le_refl _
  · split
    · split
      · exact le_refl _
      · omega
    · exact le_refl _

end Nudge

section Paths

variable {row : ChannelStateRow} {fee : ℤ}

def Nudges (d : CycleDeps ω τ π) (fee : ℤ) (r : AdjustResult) : Prop :=
  ∀ a, r.adjustment = some a → a.reasonCode = "gossip_refresh" →
    nudgeFee d.cfg fee = some a.newFeePpm

theorem Nudges.none {r : AdjustResult} (h : r.adjustment = none) : Nudges d fee r := by
  intro a ha
  rw [h] at ha
  cases ha

theorem returns_then {σ ε : Type} {m : Eff σ ε α} {k : α → Eff σ ε β} {f : β → σ → Prop} {s : σ}
    (h : ∀ a t, wp (k a) (Post.returns f) t) : wp (m >>= k) (Post.returns f) s := by
  apply returns_bind (returns_of fun _ _ _ => trivial)
  exact fun a t _ => h a t

theorem submit_fee (hexec : d.executor.Decides d.cfg) (request : FeeExecutionRequest)
    (reason : String) (code : FeeReasonCode) (s : World ω) :
    wp (submit d request reason code)
      (Post.returns fun sent _ => sent.decision.clampedFeePpm = request.fee d.cfg) s := by
  apply returns_then
  rintro ⟨authorized, governed⟩ t
  apply returns_bind (f := fun decision _ => decision.clampedFeePpm = request.fee d.cfg)
  · apply returns_of
    intro decision u hrun
    rw [executeFee] at hrun
    cases hx : d.executor with
    | recording =>
      rw [hx] at hrun
      obtain ⟨⟨decided, action⟩, t₁, hrecord, hrun⟩ := bind_ok hrun
      obtain ⟨_, t₂, -, hrun⟩ := bind_ok hrun
      cases hrun
      cases hr : recordedExecution { request with authorized := authorized } d.cfg with
      | error e =>
        rw [hr] at hrecord
        cases hrecord
      | ok r =>
        rw [hr] at hrecord
        cases hrecord
        obtain ⟨rfl, -⟩ := recordedExecution_ok hr
        rfl
    | other execute =>
      rw [hx] at hrun hexec
      obtain ⟨env, hask, -⟩ := on_ok (l := World.outside) hrun
      have hfee := hexec _ _ (ask_ok hask)
      exact hfee
  · intro decision u hfee
    exact returns_pure hfee

theorem createGossipRefreshAdjustment_nudges (hcfg : d.cfg.Ordered)
    (hexec : d.executor.Decides d.cfg) (now : ℤ) (s : ChannelRun ω τ π) :
    wp (createGossipRefreshAdjustment d row fee now)
      (Post.returns fun r _ => Nudges d fee r) s := by
  rw [createGossipRefreshAdjustment]
  cases hnudge : nudgeFee d.cfg fee with
  | none => exact returns_pure (.none rfl)
  | some nudge =>
    apply returns_then
    intro _ t₁
    apply returns_bind (f := fun sent _ => sent.decision.clampedFeePpm = nudge)
    · apply returns_on
      refine returns_mono (submit_fee hexec _ _ _ _) fun sent _ hfee => ?_
      rw [hfee, refreshRequest_fee hcfg hnudge]
    · intro sent t₂ hfee
      apply returns_ite
      · intro _
        apply returns_then
        intro _ t₃
        apply returns_then
        intro _ t₄
        apply returns_modify_bind
        apply returns_pure
        intro a ha _
        cases ha
        rw [hnudge, hfee]
      · exact fun _ => returns_pure (.none rfl)

theorem holdOrRefresh_nudges (hcfg : d.cfg.Ordered) (hexec : d.executor.Decides d.cfg) (now : ℤ)
    (hold : ChannelRun ω τ π → ChannelRun ω τ π) (s : ChannelRun ω τ π) :
    wp (holdOrRefresh d row fee now hold) (Post.returns fun r _ => Nudges d fee r) s := by
  apply returns_then
  intro cycle t₁
  apply returns_then
  intro due t₂
  have hrefresh : wp (refreshWhenDue d row fee now due)
      (Post.returns fun r _ => Nudges d fee r) t₂ := by
    apply returns_ite
    · exact fun _ => createGossipRefreshAdjustment_nudges hcfg hexec now t₂
    · exact fun _ => returns_pure (.none rfl)
  apply returns_bind hrefresh
  intro refreshed t₃ hnudges
  apply returns_ite
  · exact fun _ => returns_pure hnudges
  · intro _
    apply returns_modify_bind
    exact returns_pure hnudges

theorem reasonCode_ne_refresh (sc : Scene) (t : Target) :
    (reasonCode sc t).asStr ≠ "gossip_refresh" := by
  rw [reasonCode]
  split
  · decide
  · decide
  · decide
  · decide
  · split
    · decide
    · decide

theorem broadcastChange_nudges (sc : Scene) (t : Target) (s : ChannelRun ω τ π) :
    wp (broadcastChange K d sc t) (Post.returns fun r _ => Nudges d fee r) s := by
  apply returns_read_bind
  apply returns_then
  intro sent t₁
  apply returns_ite
  · intro _
    apply returns_then
    intro _ t₂
    apply returns_then
    intro _ t₃
    apply returns_modify_bind
    apply returns_pure
    intro a ha hcode
    cases ha
    exact absurd hcode (reasonCode_ne_refresh sc t)
  · intro _
    apply returns_modify_bind
    exact returns_pure (.none rfl)

/-- A channel whose fee on chain is zero is past the alpha guard once any fee is decided for it,
and always past the gate. -/
theorem withinAlphaGuard_raw {sc : Scene} {t : Target} (hmin : 0 ≤ d.cfg.minFeePpm)
    (hcurrent : sc.currentFeePpm =
      if sc.rawChainFee = 0 ∧ sc.isUnderExploration = false then d.cfg.minFeePpm
        else sc.rawChainFee)
    (h : withinAlphaGuard K d sc t = true) : sc.currentFeePpm = sc.rawChainFee := by
  by_cases hzero : sc.rawChainFee = 0 ∧ sc.isUnderExploration = false
  · rw [if_pos hzero] at hcurrent
    simp only [withinAlphaGuard, hzero.1, hzero.2, Bool.and_eq_true, decide_eq_true_eq,
      Bool.not_eq_true', Bool.not_false, Bool.and_true, le_refl, decide_true, Bool.true_and,
      decide_eq_false_iff_not] at h
    obtain ⟨⟨⟨hstep, -⟩, -⟩, hnew⟩ := h
    rw [minChange] at hstep
    have habs := neg_le_abs (t.newFeePpm - sc.currentFeePpm)
    split at hstep
    · omega
    · omega
  · rw [if_neg hzero] at hcurrent
    exact hcurrent

theorem significantChange_raw {sc : Scene} {t : Target} {c : ChannelCycleState}
    (hcurrent : sc.currentFeePpm =
      if sc.rawChainFee = 0 ∧ sc.isUnderExploration = false then d.cfg.minFeePpm
        else sc.rawChainFee)
    (h : significantChange sc t c = false) : sc.currentFeePpm = sc.rawChainFee := by
  rw [if_neg] at hcurrent
  · exact hcurrent
  · rintro ⟨hzero, -⟩
    simp [significantChange, hzero] at h

theorem settle_nudges (hcfg : d.cfg.Ordered) (hexec : d.executor.Decides d.cfg) (sc : Scene)
    (t : Target) (hcurrent : sc.currentFeePpm =
      if sc.rawChainFee = 0 ∧ sc.isUnderExploration = false then d.cfg.minFeePpm
        else sc.rawChainFee)
    (s : ChannelRun ω τ π) :
    wp (settle K d sc t) (Post.returns fun r _ => Nudges d sc.rawChainFee r) s := by
  apply returns_read_bind
  apply returns_ite
  · intro halpha
    apply returns_modify_bind
    rw [← withinAlphaGuard_raw hcfg.minNonneg hcurrent halpha]
    exact holdOrRefresh_nudges hcfg hexec _ _ _
  · intro _
    apply returns_ite
    · intro hgate
      apply returns_modify_bind
      rw [Bool.and_eq_true, Bool.not_eq_true'] at hgate
      rw [← significantChange_raw hcurrent hgate.1]
      exact holdOrRefresh_nudges hcfg hexec _ _ _
    · intro _
      apply returns_ite
      · intro _
        apply returns_modify_bind
        exact returns_pure (.none rfl)
      · exact fun _ => broadcastChange_nudges sc t s

theorem adjustChannel_nudges (hcfg : d.cfg.Ordered) (hexec : d.executor.Decides d.cfg)
    (ctx : AdjustCtx) (vegas : VegasReflexState) (isCongested isUnderExploration : Bool) (now : ℤ)
    (s : ChannelRun ω τ π) :
    wp (adjustChannel K d ctx vegas isCongested isUnderExploration now)
      (Post.returns fun r _ => Nudges d ctx.info.feeProportionalMillionths r) s := by
  apply returns_read_bind
  apply returns_then
  intro woke t₁
  cases woke with
  | none => exact returns_pure (.none rfl)
  | some woke =>
    apply returns_then
    intro obs t₂
    cases obs with
    | none => exact returns_pure (.none rfl)
    | some obs =>
      apply returns_then
      intro r t₃
      apply returns_then
      intro target t₄
      cases target with
      | none => exact returns_pure (.none rfl)
      | some target => exact settle_nudges hcfg hexec _ target rfl t₄

end Paths

structure OnePpm (d : CycleDeps ω τ π) (row : ChannelStateRow) (info : ChannelInfo) (fee : ℤ) :
    Prop where
  step : |fee - info.feeProportionalMillionths| = 1
  lower : ∀ eff, ChannelMinimum d row info eff → eff ≤ fee
  upper : fee ≤ d.cfg.maxFeePpm

/-- A refresh that goes out is a nudge exactly where the fee on chain is at most one ppm outside
the configured limits. -/
theorem gossip_refresh_one_ppm_iff (hcfg : d.cfg.Ordered) (hexec : d.executor.Decides d.cfg)
    {ctx : AdjustCtx} {vegas : VegasReflexState} {isCongested isUnderExploration : Bool} {now : ℤ}
    {s t : ChannelRun ω τ π} {r : AdjustResult} {a : FeeAdjustmentRec}
    (hrun : adjustChannel K d ctx vegas isCongested isUnderExploration now s = (.ok r, t))
    (ha : r.adjustment = some a) (hcode : a.reasonCode = "gossip_refresh") :
    OnePpm d ctx.row ctx.info a.newFeePpm ↔
      d.cfg.minFeePpm ≤ ctx.info.feeProportionalMillionths + 1 ∧
        ctx.info.feeProportionalMillionths ≤ d.cfg.maxFeePpm + 1 := by
  have hnudge := returned (adjustChannel_nudges hcfg hexec ctx vegas _ _ now s) hrun a ha hcode
  rw [← nudgeFee_step_iff hcfg hnudge]
  obtain ⟨hlo, hhi⟩ := nudgeFee_bounds hcfg hnudge
  constructor
  · exact OnePpm.step
  · intro hstep
    refine ⟨hstep, ?_, hhi⟩
    rintro eff ⟨_, window, _, _, -, -, -, rfl⟩
    exact (effectiveMin_le _ _ _ _ _).trans hlo

section Samples

/-- A channel with a day-old broadcast, and a minimum of 200 that a saturated channel need not
keep. -/
def refreshDeps (minFeePpm : ℤ) : CycleDeps Unit Unit Unit :=
  let d := plainDeps (fun _ => always none) (always 200000)
  { d with cfg := { d.cfg with minFeePpm := minFeePpm, minFeePpmSaturated := 50 } }

def refreshCtx : AdjustCtx :=
  ⟨plainRow "1x1x1" "a", { plainInfo "1x1x1" with spendableMsat := 900000000 }, none, none, none, 0,
    none, none⟩

def refreshRun : ChannelRun Unit Unit Unit where
  cycle := { ChannelCycleState.default with lastBroadcastAt := 1000, lastBroadcastFeePpm := 100 }
  fee := .default () ()
  world := .fresh ()

def refreshedFee (minFeePpm : ℤ) : Option (ℤ × String) :=
  match (adjustChannel plainKernel (refreshDeps minFeePpm) refreshCtx .default false false 200000
    refreshRun).1 with
  | .ok r => r.adjustment.map fun a => (a.newFeePpm, a.reasonCode)
  | _ => none

theorem refreshed {minFeePpm fee : ℤ} (h : refreshedFee minFeePpm = some (fee, "gossip_refresh")) :
    ∃ r t a, adjustChannel plainKernel
      (refreshDeps minFeePpm) refreshCtx .default false false 200000
        refreshRun = (.ok r, t) ∧ r.adjustment = some a ∧ a.reasonCode = "gossip_refresh" ∧
      a.newFeePpm = fee := by
  rw [refreshedFee] at h
  split at h
  · rename_i r hr
    obtain ⟨a, ha, hpair⟩ := Option.map_eq_some_iff.mp h
    rw [Prod.mk.injEq] at hpair
    exact ⟨r, _, a, Prod.ext hr rfl, ha, hpair.2, hpair.1⟩
  · cases h

/-- With the fee inside the limits the refresh goes up by one. -/
theorem gossip_refresh_one_ppm_inside :
    ∃ fee, refreshedFee 100 = some (fee, "gossip_refresh") ∧
      OnePpm (refreshDeps 100) refreshCtx.row refreshCtx.info fee := by
  have hfee : refreshedFee 100 = some (101, "gossip_refresh") := by decide +kernel
  obtain ⟨r, t, a, hrun, ha, hcode, hnew⟩ := refreshed hfee
  refine ⟨101, hfee, ?_⟩
  rw [← hnew]
  exact (gossip_refresh_one_ppm_iff (d := refreshDeps 100) (by decide) trivial hrun ha hcode).mpr
    (by decide)

/-- A saturated channel holds a fee of 100 under the minimum of 200, and its refresh doubles it. -/
theorem gossip_refresh_jumps :
    refreshedFee 200 = some (200, "gossip_refresh") ∧
      ¬ OnePpm (refreshDeps 200) refreshCtx.row refreshCtx.info 200 := by
  refine ⟨by decide +kernel, fun h => ?_⟩
  exact absurd h.step (by decide)

end Samples

end FeeCycle
