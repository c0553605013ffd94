import RevenueOps.FeeCycleFailures

/-! The two records of a channel: what the gates of a decision read, and what skips and the store
read. The fields they share are written together on every way out of an adjustment; in between
only the fee of the last decision is ahead on one side. -/
namespace FeeCycle

open FallibleState KeyedTable RustNumber

variable {ω τ π α β : Type} {K : Kernel τ π} {d : CycleDeps ω τ π}

structure SharedRecord where
  isSleeping : Bool
  sleepUntil : ℤ
  lastUpdate : ℤ
  lastFeePpm : ℤ
  lastBroadcastFeePpm : ℤ
  lastBroadcastAt : ℤ
  lastGossipRefresh : ℤ
  deriving DecidableEq

def ChannelCycleState.shared (c : ChannelCycleState) : SharedRecord :=
  ⟨c.isSleeping, c.sleepUntil, c.lastUpdate, c.lastFeePpm, c.lastBroadcastFeePpm,
    c.lastBroadcastAt, c.lastGossipRefresh⟩

def ChannelFeeState.shared (f : ChannelFeeState τ π) : SharedRecord :=
  ⟨f.isSleeping, f.sleepUntil, f.lastUpdate, f.lastFeePpm, f.lastBroadcastFeePpm,
    f.lastBroadcastAt, f.lastGossipRefresh⟩

def SharedRecord.apart (r : SharedRecord) : SharedRecord := { r with lastFeePpm := 0 }

def InStep (channelId : String) (s : ControllerState τ π) : Prop :=
  (s.cycleStates.get? channelId).map ChannelCycleState.shared =
    (s.feeStates.get? channelId).map ChannelFeeState.shared

section Channel

def ChannelRun.InStep (s : ChannelRun ω τ π) : Prop := s.cycle.shared = s.fee.shared

def ChannelRun.NearlyInStep (s : ChannelRun ω τ π) : Prop :=
  s.cycle.shared.apart = s.fee.shared.apart

theorem ChannelRun.InStep.nearly {s : ChannelRun ω τ π} (h : s.InStep) : s.NearlyInStep :=
  congrArg SharedRecord.apart h

theorem paired_asking (m : Ask ω α) :
    Within (Keeping ChannelRun.InStep) (asking m : OnChannel ω τ π α) :=
  within_on fun _ _ h => h

theorem paired_read (f : ChannelRun ω τ π → α) :
    Within (Keeping ChannelRun.InStep) (Eff.read f : OnChannel ω τ π α) := within_read f

theorem paired_modify {f : ChannelRun ω τ π → ChannelRun ω τ π} (g : SharedRecord → SharedRecord)
    (hcycle : ∀ s, (f s).cycle.shared = g s.cycle.shared)
    (hfee : ∀ s, (f s).fee.shared = g s.fee.shared) :
    Within (Keeping ChannelRun.InStep) (Eff.modify f : OnChannel ω τ π Unit) := by
  apply within_modify
  intro s h
  exact (hcycle s).trans ((congrArg g h).trans (hfee s).symm)

theorem paired_wakeBoth :
    Within (Keeping ChannelRun.InStep) (Eff.modify wakeBoth : OnChannel ω τ π Unit) :=
  paired_modify (fun r => { r with isSleeping := false, sleepUntil := 0 }) (fun _ => rfl)
    fun _ => rfl

theorem sleepCheck_paired (ctx : AdjustCtx) (isCongested : Bool) (now : ℤ) :
    Within (Keeping ChannelRun.InStep) (sleepCheck d ctx isCongested now) :=
  sleepCheck_within paired_asking paired_wakeBoth ctx isCongested now

theorem observe_paired (ctx : AdjustCtx) (profile : FeeProfileSettings) (now : ℤ) :
    Within (Keeping ChannelRun.InStep) (observe d ctx profile now) :=
  observe_within paired_asking (fun _ _ h => h) ctx profile now

theorem recordRaw_paired (sc : Scene) (congested : Bool) :
    Within (Keeping ChannelRun.InStep) (recordRaw K d sc congested) :=
  recordRaw_within paired_asking (fun _ _ _ h => h) sc congested

theorem recordWindow_paired (sc : Scene) (rate : Float) :
    Within (Keeping ChannelRun.InStep) (recordWindow K d sc rate) :=
  recordWindow_within paired_asking (fun _ _ _ h => h) sc rate

theorem congestionTarget_paired (sc : Scene) :
    Within (Keeping ChannelRun.InStep) (congestionTarget K d sc) := by
  apply within_bind
  · exact paired_modify id (fun _ => rfl) fun _ => rfl
  intro _
  apply within_bind (recordRaw_paired sc _)
  intro _
  apply within_bind (paired_read _)
  intro firstTrip
  apply within_bind
  · exact paired_modify id (fun _ => rfl) fun _ => rfl
  intro _
  apply within_bind (paired_read _)
  intro entry
  exact within_bind (paired_read _) fun _ => within_pure _

theorem explorationTarget_paired (sc : Scene) :
    Within (Keeping ChannelRun.InStep) (explorationTarget K d sc) := by
  apply within_bind (recordRaw_paired sc _)
  intro _
  apply within_ite
  · exact fun _ => within_bind (paired_asking _) fun _ => within_pure _
  · exact fun _ => within_bind (paired_read _) fun _ => within_pure _

theorem nearly_asking (m : Ask ω α) :
    Within (Keeping ChannelRun.NearlyInStep) (asking m : OnChannel ω τ π α) :=
  within_on fun _ _ h => h

theorem nearly_read (f : ChannelRun ω τ π → α) :
    Within (Keeping ChannelRun.NearlyInStep) (Eff.read f : OnChannel ω τ π α) := within_read f

theorem nearly_learning (m : Learn ω τ π α) :
    Within (Keeping ChannelRun.NearlyInStep) (Eff.on ChannelRun.learning m) :=
  within_on fun _ _ h => h

theorem nearly_modify {f : ChannelRun ω τ π → ChannelRun ω τ π}
    (hcycle : ∀ s, (f s).cycle.shared.apart = s.cycle.shared.apart)
    (hfee : ∀ s, (f s).fee.shared.apart = s.fee.shared.apart) :
    Within (Keeping ChannelRun.NearlyInStep) (Eff.modify f : OnChannel ω τ π Unit) := by
  apply within_modify
  intro s h
  exact (hcycle s).trans (h.trans (hfee s).symm)

theorem blendAnchor_shared (sc : Scene) (bounded : ℤ) (c : ChannelCycleState) :
    (blendAnchor sc bounded c).2.shared = c.shared := by
  rw [blendAnchor]
  dsimp only
  split
  · split
    · rfl
    · rfl
  · rfl

theorem settleSample_nearly (sc : Scene) (sig : Signal) (dtsFee : ℤ) (p : Priced) :
    Within (Keeping ChannelRun.NearlyInStep) (settleSample K d sc sig dtsFee p) := by
  apply within_bind
  · intro s h
    exact (congrArg SharedRecord.apart (blendAnchor_shared sc _ s.cycle)).trans h
  intro anchor
  apply within_bind (nearly_read _)
  intro thompson
  apply within_bind (nearly_asking _)
  intro guarded
  apply within_bind
  · exact nearly_modify (fun _ => rfl) fun _ => rfl
  · exact fun _ => within_pure _

theorem sampleTarget_nearly (sc : Scene) (sig : Signal) :
    Within (Keeping ChannelRun.NearlyInStep) (sampleTarget K d sc sig) := by
  apply within_bind
  · apply nearly_modify
    · exact fun _ => by dsimp only; split <;> rfl
    · exact fun _ => by dsimp only; split <;> rfl
  intro _
  apply within_bind (nearly_learning _)
  intro sampled
  apply within_bind
  · exact nearly_modify (fun _ => rfl) fun _ => rfl
  intro _
  apply within_bind (nearly_learning _)
  intro priced
  exact settleSample_nearly sc sig sampled.dtsFee priced

/-- With a target the fee of the last decision may be ahead, and without one nothing is. -/
def DecidedInStep (r : Option Target) (t : ChannelRun ω τ π) : Prop :=
  if r.isSome then t.NearlyInStep else t.InStep

variable {s : ChannelRun ω τ π}

theorem dtsTarget_inStep (sc : Scene) (h : s.InStep) :
    wp (dtsTarget K d sc) (Post.returns DecidedInStep) s := by
  have hstable (n : ℤ) : Within (Keeping ChannelRun.InStep)
      (Eff.modify fun s => { s with fee := { s.fee with stableCycles := n } } :
        OnChannel ω τ π Unit) :=
    paired_modify id (fun _ => rfl) fun _ => rfl
  apply returns_read_bind
  apply returns_bind (returns_of_keeping (hstable _) h)
  intro _ t₁ h₁
  apply returns_bind (returns_of_keeping (recordWindow_paired sc _) h₁)
  intro _ t₂ h₂
  apply returns_ite
  · intro _
    apply returns_modify_bind
    apply returns_pure
    exact congrArg (fun r : SharedRecord => { r with
      isSleeping := true
      sleepUntil := sc.now + d.cfg.feeInterval * 2
      lastUpdate := sc.now
      lastFeePpm := sc.currentFeePpm }) h₂
  · intro _
    apply returns_bind (returns_of_keeping (sampleTarget_nearly sc _) h₂.nearly)
    exact fun _ _ h₃ => returns_pure h₃

theorem decideTarget_inStep (sc : Scene) (h : s.InStep) :
    wp (decideTarget K d sc) (Post.returns DecidedInStep) s := by
  apply returns_ite
  · intro _
    apply returns_bind (returns_of_keeping (congestionTarget_paired sc) h)
    exact fun _ _ h₁ => returns_pure h₁.nearly
  · intro _
    have hquiet : Within (Keeping ChannelRun.InStep)
        (Eff.modify fun s => { s with cycle := countQuiet s.cycle } : OnChannel ω τ π Unit) := by
      apply paired_modify id
      · exact fun _ => by dsimp only [countQuiet]; split_ifs <;> rfl
      · exact fun _ => rfl
    apply returns_bind (returns_of_keeping hquiet h)
    intro _ t₁ h₁
    apply returns_ite
    · intro _
      apply returns_bind (returns_of_keeping (explorationTarget_paired sc) h₁)
      exact fun _ _ h₂ => returns_pure h₂.nearly
    · exact fun _ => dtsTarget_inStep sc h₁

end Channel

section Settle

variable {s : ChannelRun ω τ π}

theorem nearly_submit (request : FeeExecutionRequest) (reason : String) (code : FeeReasonCode) :
    Within (Keeping ChannelRun.NearlyInStep)
      (Eff.on ChannelRun.broadcast (submit d request reason code) : OnChannel ω τ π Submitted) :=
  within_on fun _ _ h => h

theorem caught_up {f : ChannelRun ω τ π → ChannelRun ω τ π} (g : SharedRecord → SharedRecord)
    (hcycle : ∀ s, (f s).cycle.shared = g s.cycle.shared.apart)
    (hfee : ∀ s, (f s).fee.shared = g s.fee.shared.apart) (h : s.NearlyInStep) : (f s).InStep :=
  (hcycle s).trans ((congrArg g h).trans (hfee s).symm)

theorem restartTimer_inStep (sc : Scene) (h : s.NearlyInStep) : (restartTimer sc s).InStep :=
  caught_up (fun r => { r with lastFeePpm := sc.currentFeePpm, lastUpdate := sc.now })
    (fun _ => rfl) (fun _ => rfl) h

theorem suppressGossip_inStep (sc : Scene) (t : Target) (h : s.NearlyInStep) :
    (suppressGossip sc t s).InStep :=
  caught_up (fun r => { r with lastFeePpm := t.newFeePpm, lastUpdate := sc.now })
    (fun _ => rfl) (fun _ => rfl) h

theorem keepFee_inStep (sc : Scene) (t : Target) (h : s.NearlyInStep) : (keepFee sc t s).InStep :=
  caught_up (fun r => { r with
    lastFeePpm := sc.rawChainFee
    lastBroadcastFeePpm := t.newFeePpm
    lastUpdate := sc.now }) (fun _ => rfl) (fun _ => rfl) h

theorem syncChange_inStep (sc : Scene) (t : Target) (fee : ℤ) (h : s.NearlyInStep) :
    (syncChange K sc t fee s).InStep :=
  caught_up (fun r => { r with
    lastFeePpm := sc.currentFeePpm
    lastBroadcastFeePpm := fee
    lastBroadcastAt := sc.now
    lastUpdate := sc.now }) (fun _ => rfl) (fun _ => rfl) h

theorem syncRefresh_inStep (fee now : ℤ) (h : s.NearlyInStep) : (syncRefresh fee now s).InStep :=
  caught_up (fun _ => ⟨false, 0, now, fee, fee, now, now⟩) (fun _ => rfl) (fun _ => rfl) h

theorem createGossipRefreshAdjustment_inStep (row : ChannelStateRow) (currentFeePpm now : ℤ)
    (h : s.NearlyInStep) :
    wp (createGossipRefreshAdjustment d row currentFeePpm now) (Post.returns fun r t =>
      if r.adjustment.isSome then t.InStep else t.NearlyInStep) s := by
  rw [createGossipRefreshAdjustment]
  split
  · exact returns_pure h
  · apply returns_bind (returns_of_keeping (nearly_asking _) h)
    intro _ t₁ h₁
    apply returns_bind (returns_of_keeping (nearly_submit _ _ _) h₁)
    intro sent t₂ h₂
    apply returns_ite
    · intro _
      apply returns_bind (returns_of_keeping (nearly_asking _) h₂)
      intro _ t₃ h₃
      apply returns_bind (returns_of_keeping (nearly_asking _) h₃)
      intro _ t₄ h₄
      apply returns_modify_bind
      exact returns_pure (syncRefresh_inStep _ _ h₄)
    · exact fun _ => returns_pure h₂

theorem holdOrRefresh_inStep (row : ChannelStateRow) (currentFeePpm now : ℤ)
    {hold : ChannelRun ω τ π → ChannelRun ω τ π} (hhold : ∀ t, t.NearlyInStep → (hold t).InStep)
    (h : s.NearlyInStep) :
    wp (holdOrRefresh d row currentFeePpm now hold) (Post.returns fun _ t => t.InStep) s := by
  apply returns_read_bind
  apply returns_bind (returns_of_keeping (nearly_asking _) h)
  intro due t₁ h₁
  have hrefresh : wp (refreshWhenDue d row currentFeePpm now due) (Post.returns fun r t =>
      if r.adjustment.isSome then t.InStep else t.NearlyInStep) t₁ := by
    apply returns_ite
    · exact fun _ => createGossipRefreshAdjustment_inStep row currentFeePpm now h₁
    · exact fun _ => returns_pure h₁
  apply returns_bind hrefresh
  intro refreshed t₂ h₂
  apply returns_ite
  · intro hsome
    rw [if_pos hsome] at h₂
    exact returns_pure h₂
  · intro hnone
    rw [if_neg hnone] at h₂
    apply returns_modify_bind
    exact returns_pure (hhold _ h₂)

theorem broadcastChange_inStep (sc : Scene) (t : Target) (h : s.NearlyInStep) :
    wp (broadcastChange K d sc t) (Post.returns fun _ u => u.InStep) s := by
  apply returns_read_bind
  apply returns_bind (returns_of_keeping (nearly_submit _ _ _) h)
  intro sent t₁ h₁
  apply returns_ite
  · intro _
    apply returns_bind (returns_of_keeping (nearly_asking _) h₁)
    intro _ t₂ h₂
    have hsync : Within (Keeping ChannelRun.NearlyInStep)
        (syncExploration d (reasonCode sc t) : OnChannel ω τ π Unit) := by
      apply within_ite
      · intro _
        refine within_bind (nearly_asking _) fun _ => within_modify fun _ h => ?_
        exact congrArg (fun r : SharedRecord => { r with isSleeping := false, sleepUntil := 0 }) h
      · exact fun _ => within_pure _
    apply returns_bind (returns_of_keeping hsync h₂)
    intro _ t₃ h₃
    apply returns_modify_bind
    exact returns_pure (syncChange_inStep sc t _ h₃)
  · intro _
    apply returns_modify_bind
    exact returns_pure (restartTimer_inStep sc h₁)

theorem settle_inStep (sc : Scene) (t : Target) (h : s.NearlyInStep) :
    wp (settle K d sc t) (Post.returns fun _ u => u.InStep) s := by
  apply returns_read_bind
  apply returns_ite
  · intro _
    apply returns_modify_bind
    exact holdOrRefresh_inStep _ _ _ (fun _ => restartTimer_inStep sc) h
  · intro _
    apply returns_ite
    · intro _
      apply returns_modify_bind
      exact holdOrRefresh_inStep _ _ _ (fun _ => suppressGossip_inStep sc t) h
    · intro _
      apply returns_ite
      · intro _
        apply returns_modify_bind
        exact returns_pure (keepFee_inStep sc t h)
      · exact fun _ => broadcastChange_inStep sc t h

theorem adjustChannel_inStep (ctx : AdjustCtx) (vegas : VegasReflexState)
    (isCongested isUnderExploration : Bool) (now : ℤ) (h : s.InStep) :
    wp (adjustChannel K d ctx vegas isCongested isUnderExploration now)
      (Post.returns fun _ t => t.InStep) s := by
  apply returns_read_bind
  apply returns_bind (returns_of_keeping (sleepCheck_paired ctx isCongested now) h)
  intro woke t₁ h₁
  cases woke with
  | none => exact returns_pure h₁
  | some woke =>
    apply returns_bind (returns_of_keeping (observe_paired ctx _ now) h₁)
    intro obs t₂ h₂
    cases obs with
    | none => exact returns_pure h₂
    | some obs =>
      apply returns_bind (returns_of_keeping (paired_asking _) h₂)
      intro r t₃ h₃
      apply returns_bind (decideTarget_inStep _ h₃)
      intro target t₄ h₄
      cases target with
      | none => exact returns_pure h₄
      | some target => exact settle_inStep _ target h₄

end Settle

section Visit

variable {id : String} {s : CycleRun ω τ π}

def CycleRun.InStep (channelId : String) (s : CycleRun ω τ π) : Prop :=
  FeeCycle.InStep channelId s.state

def SharedRecord.resync (actualFeePpm : ℤ) (r : SharedRecord) : SharedRecord :=
  { r with lastBroadcastFeePpm := resyncBroadcastFee r.lastBroadcastFeePpm actualFeePpm }

def CycleRun.Ready (K : Kernel τ π) (channelId : String) (actualFeePpm : ℤ) (s : CycleRun ω τ π) :
    Prop :=
  ((CycleRun.channel K channelId).get s).cycle.shared.resync actualFeePpm =
    ((CycleRun.channel K channelId).get s).fee.shared.resync actualFeePpm

theorem CycleRun.InStep.channel (h : s.InStep id) : ((CycleRun.channel K id).get s).InStep := by
  rw [CycleRun.InStep, FeeCycle.InStep] at h
  rw [ChannelRun.InStep]
  change ((s.state.cycleStates.get? id).getD .default).shared =
    ((s.state.feeStates.get? id).getD (.default K.defaultThompson K.defaultPid)).shared
  cases hc : s.state.cycleStates.get? id with
  | none =>
    cases hf : s.state.feeStates.get? id with
    | none => rfl
    | some f => simp [hc, hf] at h
  | some c =>
    cases hf : s.state.feeStates.get? id with
    | none => simp [hc, hf] at h
    | some f => simpa [hc, hf] using h

theorem CycleRun.InStep.ready (h : s.InStep id) (actualFeePpm : ℤ) : s.Ready K id actualFeePpm :=
  congrArg (SharedRecord.resync actualFeePpm) h.channel

theorem put_inStep {c : ChannelRun ω τ π} (h : c.InStep) :
    ((CycleRun.channel K id).put c s).InStep id := by
  rw [CycleRun.InStep, FeeCycle.InStep]
  change ((s.state.cycleStates.insert id c.cycle).get? id).map _ =
    ((s.state.feeStates.insert id c.fee).get? id).map _
  rw [Dict.get_insert_self, Dict.get_insert_self]
  exact congrArg some h

theorem resyncBroadcastFee_idem (tracked actualFeePpm : ℤ) :
    resyncBroadcastFee (resyncBroadcastFee tracked actualFeePpm) actualFeePpm =
      resyncBroadcastFee tracked actualFeePpm := by
  by_cases h : 0 < actualFeePpm ∧ 0 < tracked ∧
      RustFloat.maxF64 100.0 (asF64 tracked * 0.5) < asF64 |actualFeePpm - tracked|
  · have htaken : resyncBroadcastFee tracked actualFeePpm = actualFeePpm := if_pos h
    rw [htaken, resyncBroadcastFee]
    exact ite_self _
  · have hkept : resyncBroadcastFee tracked actualFeePpm = tracked := if_neg h
    rw [hkept]
    exact hkept

theorem ready_ensureCycleState {actualFeePpm : ℤ} (h : s.Ready K id actualFeePpm) :
    (ensureCycleState id actualFeePpm s).Ready K id actualFeePpm := by
  refine Eq.trans ?_ h
  have hcycle : ((CycleRun.channel K id).get (ensureCycleState id actualFeePpm s)).cycle =
      ((CycleRun.channel K id).get s).cycle.resync actualFeePpm := by
    simp [CycleRun.channel, ensureCycleState]
  rw [hcycle]
  simp only [SharedRecord.resync, ChannelCycleState.shared, ChannelCycleState.resync,
    resyncBroadcastFee_idem]

theorem ensured_inStep {actualFeePpm : ℤ} (h : s.Ready K id actualFeePpm) :
    ((CycleRun.channel K id).get
      (ensureFeeState K id actualFeePpm (ensureCycleState id actualFeePpm s))).InStep := by
  have hcycle : ((CycleRun.channel K id).get (ensureFeeState K id actualFeePpm
      (ensureCycleState id actualFeePpm s))).cycle =
        ((CycleRun.channel K id).get s).cycle.resync actualFeePpm := by
    simp [CycleRun.channel, ensureCycleState, ensureFeeState]
  have hfee : ((CycleRun.channel K id).get (ensureFeeState K id actualFeePpm
      (ensureCycleState id actualFeePpm s))).fee =
        ((CycleRun.channel K id).get s).fee.resync actualFeePpm := by
    simp [CycleRun.channel, ensureCycleState, ensureFeeState]
  rw [ChannelRun.InStep, hcycle, hfee]
  exact h

theorem kept_asking {P : CycleRun ω τ π → Prop} (hP : ∀ s t, t.state = s.state → P s → P t)
    (m : Ask ω α) : Within (Keeping P) (CycleRun.asking m : OnCycle ω τ π α) :=
  within_on fun s _ h => hP s _ rfl h

theorem kept_stamp {P : CycleRun ω τ π → Prop} (hP : ∀ s t, t.state = s.state → P s → P t)
    (label : String) : Within (Keeping P) (stamp d label : OnCycle ω τ π ℤ) := by
  apply within_bind (kept_asking hP _)
  intro t
  apply within_bind
  · exact within_modify fun s h => hP s _ rfl h
  · exact fun _ => within_pure _

theorem inStep_of_state (s t : CycleRun ω τ π) (h : t.state = s.state) (hs : s.InStep id) :
    t.InStep id := by
  rw [CycleRun.InStep, h]
  exact hs

theorem ready_of_state {actualFeePpm : ℤ} (s t : CycleRun ω τ π) (h : t.state = s.state)
    (hs : s.Ready K id actualFeePpm) : t.Ready K id actualFeePpm := by
  have hcycle : ((CycleRun.channel K id).get t).cycle = ((CycleRun.channel K id).get s).cycle := by
    simp only [CycleRun.channel, h]
  have hfee : ((CycleRun.channel K id).get t).fee = ((CycleRun.channel K id).get s).fee := by
    simp only [CycleRun.channel, h]
  rw [CycleRun.Ready, hcycle, hfee]
  exact hs

theorem adjustChannelFee_inStep (ctx : AdjustCtx) (evaluatedAt : ℤ)
    (h : s.Ready K ctx.row.channelId ctx.info.feeProportionalMillionths) :
    wp (adjustChannelFee K d ctx evaluatedAt)
      (Post.returns fun _ t => t.InStep ctx.row.channelId) s := by
  apply returns_bind (returns_of_keeping (kept_asking ready_of_state _) h)
  intro isUnderExploration t₁ h₁
  apply returns_bind (returns_of_keeping (kept_stamp ready_of_state _) h₁)
  intro now t₂ h₂
  apply returns_modify_bind
  apply returns_modify_bind
  apply returns_read_bind
  apply returns_on
  apply returns_mono (adjustChannel_inStep ctx _ _ _ now (ensured_inStep h₂))
  exact fun _ _ h₃ => put_inStep h₃

theorem dynamicBranch_inStep (scope : CycleScope) (row : ChannelStateRow) (info : ChannelInfo)
    (policy : Option PeerPolicies.PeerPolicy) (h : s.InStep row.channelId) :
    wp (dynamicBranch K d scope row info policy)
      (Post.returns fun _ t => t.InStep row.channelId) s := by
  apply returns_bind (returns_of_keeping (kept_stamp inStep_of_state _) h)
  intro now t₁ h₁
  apply returns_modify_bind
  apply returns_read_bind
  apply returns_read_bind
  have hready := ready_ensureCycleState (h₁.ready (K := K) info.feeProportionalMillionths)
  apply returns_bind (returns_of_keeping (kept_asking ready_of_state _) hready)
  intro hint t₂ h₂
  refine returns_bind (adjustChannelFee_inStep _ now h₂) ?_
  intro adjusted t₃ h₃
  cases adjusted.adjustment with
  | some a => exact returns_pure h₃
  | none =>
    apply returns_read_bind
    exact returns_pure h₃

theorem paired_syncStatic (fee now : ℤ) : Within (Keeping ChannelRun.InStep)
    (Eff.modify (syncStatic fee now) : OnChannel ω τ π Unit) :=
  paired_modify (fun r => { r with
    isSleeping := false
    sleepUntil := 0
    lastFeePpm := fee
    lastBroadcastFeePpm := fee
    lastBroadcastAt := now
    lastUpdate := now }) (fun _ => rfl) fun _ => rfl

theorem staticPolicyBranch_inStep (info : ChannelInfo) (peerId : String) (target : ℤ)
    (h : s.InStep info.channelId) :
    wp (staticPolicyBranch K d info peerId target)
      (Post.returns fun _ t => t.InStep info.channelId) s := by
  apply returns_ite
  · exact fun _ => returns_pure h
  · intro _
    have hsubmit : Within (Keeping (CycleRun.InStep info.channelId))
        (Eff.on CycleRun.broadcast (submit d (staticRequest d.cfg info target) "Policy: STATIC"
          .policyStatic) : OnCycle ω τ π Submitted) :=
      within_on fun s t hs => inStep_of_state s _ rfl hs
    apply returns_bind (returns_of_keeping hsubmit h)
    intro sent t₁ h₁
    apply returns_ite
    · intro _
      apply returns_bind (returns_of_keeping (kept_stamp inStep_of_state _) h₁)
      intro _ t₂ h₂
      apply returns_bind (returns_of_keeping (kept_stamp inStep_of_state _) h₂)
      intro now t₃ h₃
      apply returns_modify_bind
      apply returns_modify_bind
      apply returns_bind (f := fun _ t => CycleRun.InStep info.channelId t)
      · apply returns_on
        apply returns_mono
          (returns_of_keeping (paired_syncStatic _ _) (ensured_inStep (h₃.ready _)))
        exact fun _ _ h₄ => put_inStep h₄
      · exact fun _ _ h₄ => returns_pure h₄
    · exact fun _ => returns_pure h₁

theorem processChannel_inStep (scope : CycleScope) (row : ChannelStateRow) {info : ChannelInfo}
    (hkey : info.channelId = row.channelId) (h : s.InStep row.channelId) :
    wp (processChannel K d scope row info) (Post.returns fun _ t => t.InStep row.channelId) s := by
  apply returns_bind (returns_of_keeping (kept_asking inStep_of_state _) h)
  intro overlay t₁ h₁
  apply returns_ite
  · exact fun _ => returns_pure h₁
  · intro _
    apply returns_bind (returns_of_keeping (kept_asking inStep_of_state _) h₁)
    intro policy t₂ h₂
    cases policy with
    | none => exact dynamicBranch_inStep scope row info none h₂
    | some p =>
      dsimp only
      split
      · exact returns_pure h₂
      · rw [← hkey] at h₂ ⊢
        exact staticPolicyBranch_inStep info row.peerId _ h₂
      · exact dynamicBranch_inStep scope row info (some p) h₂

theorem Local.inStep {t : CycleRun ω τ π} {visited : String} (h : Local visited s t)
    (hne : id ≠ visited) (hs : s.InStep id) : t.InStep id := by
  rw [CycleRun.InStep, FeeCycle.InStep, h.cycles id hne, h.fees id hne]
  exact hs

theorem visitRow_inStep (scope : CycleScope) (channels : ChannelsInfo) (cycleId : String) (now : ℤ)
    (row : ChannelStateRow) (tally : Tally) (h : s.InStep id) :
    wp (visitRow K d scope channels cycleId now row tally)
      (Post.returns fun _ t => t.InStep id) s := by
  by_cases hid : id = row.channelId
  · subst hid
    apply returns_ite
    · exact fun _ => returns_pure h
    · intro _
      cases hfind : channels.find? row.channelId with
      | none => exact returns_pure h
      | some info =>
        apply returns_bind (processChannel_inStep scope row (find_key hfind) h)
        exact fun _ _ h₁ => returns_pure h₁
  · apply returns_mono
      (returns_of_within (visitRow_local scope channels cycleId now row tally) s)
    exact fun _ _ hlocal => hlocal.inStep hid h

theorem visitRows_inStep (scope : CycleScope) (channels : ChannelsInfo) (cycleId : String)
    (now : ℤ) (rows : List ChannelStateRow) (tally : Tally) (h : s.InStep id) :
    wp (visitRows K d scope channels cycleId now rows tally)
      (Post.returns fun _ t => t.InStep id) s := by
  induction rows generalizing tally s with
  | nil => exact returns_pure h
  | cons row rows ih =>
    apply returns_bind (visitRow_inStep scope channels cycleId now row tally h)
    exact fun tally' _ h₁ => ih tally' h₁

end Visit

section Wakes

variable {id : String} {s : ControllerState τ π}

theorem inStep_mapValues {f : String → ChannelCycleState → ChannelCycleState}
    {g : String → ChannelFeeState τ π → ChannelFeeState τ π} (w : SharedRecord → SharedRecord)
    (hf : ∀ c, (f id c).shared = w c.shared) (hg : ∀ c, (g id c).shared = w c.shared)
    (h : InStep id s) :
    ((mapValues s.cycleStates f).get? id).map ChannelCycleState.shared =
      ((mapValues s.feeStates g).get? id).map ChannelFeeState.shared := by
  have hleft : ChannelCycleState.shared ∘ f id = w ∘ ChannelCycleState.shared := funext hf
  have hright : ChannelFeeState.shared ∘ g id = w ∘ ChannelFeeState.shared := funext hg
  rw [get_mapValues, get_mapValues, Option.map_map, Option.map_map, hleft, hright,
    ← Option.map_map, ← Option.map_map]
  exact congrArg (Option.map w) h

theorem wakeAllSleepingChannels_inStep (profile : FeeProfileSettings) (now : ℤ) (h : InStep id s) :
    InStep id (wakeAllSleepingChannels profile now s).1 := by
  refine inStep_mapValues (fun r =>
    { (if r.isSleeping then { r with isSleeping := false, sleepUntil := 0 } else r) with
      lastUpdate := min r.lastUpdate (backdatedTo profile now) }) ?_ ?_ h
  · intro c
    rw [ChannelCycleState.wakeBackdated]
    cases hc : c.isSleeping <;> simp [ChannelCycleState.shared, ChannelCycleState.wakeUp, hc]
  · intro f
    rw [ChannelFeeState.wakeBackdated]
    cases hf : f.isSleeping <;> simp [ChannelFeeState.shared, ChannelFeeState.wakeUp, hf]

theorem maybeWakeForVegasSpike_inStep (profile : FeeProfileSettings) (now : ℤ) (h : InStep id s) :
    InStep id (maybeWakeForVegasSpike profile now s) := by
  rw [maybeWakeForVegasSpike]
  split
  · exact wakeAllSleepingChannels_inStep (s := { s with vegasWakeArmed := false }) profile now h
  · split
    · exact h
    · exact h

theorem handlePolicyChange_inStep (rows : List ChannelStateRow) (peerId : String)
    (h : InStep id s) : InStep id (handlePolicyChange rows peerId s).1 := by
  let ids := (rows.filter fun r => r.peerId = peerId && !r.channelId.isEmpty).map
    ChannelStateRow.channelId
  refine inStep_mapValues (fun r =>
    if id ∈ ids ∧ r.isSleeping then { r with isSleeping := false, sleepUntil := 0 } else r) ?_ ?_ h
  · intro c
    change (if id ∈ ids ∧ c.isSleeping then c.wakeUp else c).shared = _
    by_cases hc : id ∈ ids ∧ c.isSleeping
    · simp [hc, ChannelCycleState.shared, ChannelCycleState.wakeUp]
    · rw [if_neg hc, if_neg (show ¬ (id ∈ ids ∧ c.shared.isSleeping) from hc)]
  · intro f
    change (if id ∈ ids ∧ f.isSleeping then f.wakeUp else f).shared = _
    by_cases hf : id ∈ ids ∧ f.isSleeping
    · simp [hf, ChannelFeeState.shared, ChannelFeeState.wakeUp]
    · rw [if_neg hf, if_neg (show ¬ (id ∈ ids ∧ f.shared.isSleeping) from hf)]

end Wakes

section Runs

variable {id : String} {s t : CycleRun ω τ π}

theorem Calm.inStep (h : Calm s t) (hs : s.InStep id) : t.InStep id := by
  rw [CycleRun.InStep, FeeCycle.InStep, h.cycles, h.fees]
  exact hs

theorem Woken.inStep {profile : FeeProfileSettings} (h : Woken profile s t) (hs : s.InStep id) :
    t.InStep id := by
  obtain ⟨-, ⟨hcycles, hfees⟩ | ⟨now, hcycles, hfees⟩⟩ := h
  · rw [CycleRun.InStep, FeeCycle.InStep, hcycles, hfees]
    exact hs
  · rw [CycleRun.InStep, FeeCycle.InStep, hcycles, hfees]
    exact wakeAllSleepingChannels_inStep profile now hs

theorem returns_of_calm {m : OnCycle ω τ π α} (h : Within Calm m) (hs : s.InStep id) :
    wp m (Post.returns fun _ t => t.InStep id) s :=
  returns_mono (returns_of_within h s) fun _ _ hcalm => hcalm.inStep hs

theorem visitChannels_inStep (rows : List ChannelStateRow) (now : ℤ) (h : s.InStep id) :
    wp (visitChannels K d rows now) (Post.returns fun _ t => t.InStep id) s := by
  apply returns_bind (returns_of_calm (calm_asking _) h)
  intro channels t₁ h₁
  apply returns_bind (returns_of_calm (calm_asking _) h₁)
  intro costs t₂ h₂
  apply returns_bind (returns_of_within (vegasReflex_woken costs) t₂)
  intro _ t₃ hwoken
  apply returns_bind (returns_of_calm calm_nodeDrainBias (hwoken.inStep h₂))
  intro cap t₄ h₄
  exact visitRows_inStep _ channels _ now rows .empty h₄

theorem summarize_entries (tally : Tally) (s : CycleRun ω τ π) :
    (summarize tally s).state.cycleStates = s.state.cycleStates ∧
      (summarize tally s).state.feeStates = s.state.feeStates := by
  rw [summarize]
  cases tally.adjustments.getLast? with
  | some last => exact ⟨rfl, rfl⟩
  | none =>
    dsimp only
    split
    · exact ⟨rfl, rfl⟩
    · exact ⟨rfl, rfl⟩

theorem journalDecisions_state (decisions : List FeeDecision) (s : CycleRun ω τ π) :
    (journalDecisions d decisions s).state = s.state := by
  rw [journalDecisions]
  split
  · rfl
  · rfl

theorem finishCycle_inStep (tally : Tally) (h : s.InStep id) :
    wp (finishCycle K d tally) (Post.returns fun _ t => t.InStep id) s := by
  apply returns_bind (returns_of_calm (calm_flush tally.dirty) h)
  intro _ t₁ h₁
  apply returns_modify_bind
  apply returns_modify_bind
  apply returns_pure
  obtain ⟨hcycles, hfees⟩ := summarize_entries tally t₁
  rw [CycleRun.InStep, journalDecisions_state, FeeCycle.InStep, hcycles, hfees]
  exact h₁

theorem runFeeCycle_inStep (h : s.InStep id) :
    wp (runFeeCycle K d) (Post.returns fun _ t => t.InStep id) s := by
  apply returns_bind (returns_of_calm (calm_stamp _) h)
  intro now t₁ h₁
  apply returns_modify_bind
  apply returns_ite
  · intro _
    apply returns_modify_bind
    exact returns_pure h₁
  · intro _
    have hcleared : (clearDiagnostics t₁).InStep id := h₁
    apply returns_bind (returns_of_calm (calm_asking _) hcleared)
    intro rows t₂ h₂
    apply returns_ite
    · intro _
      apply returns_modify_bind
      exact returns_pure h₂
    · intro _
      apply returns_bind (visitChannels_inStep rows now h₂)
      exact fun tally _ h₃ => finishCycle_inStep tally h₃

inductive FeeStep : ControllerState τ π → ControllerState τ π → Prop where
  | cycle {ω : Type} (K : Kernel τ π) (d : CycleDeps ω τ π) {s t : CycleRun ω τ π}
      {decisions : List FeeDecision} (h : runFeeCycle K d s = (.ok decisions, t)) :
      FeeStep s.state t.state
  | wakeAll (profile : FeeProfileSettings) (now : ℤ) (s : ControllerState τ π) :
      FeeStep s (wakeAllSleepingChannels profile now s).1
  | vegasWake (profile : FeeProfileSettings) (now : ℤ) (s : ControllerState τ π) :
      FeeStep s (maybeWakeForVegasSpike profile now s)
  | policyChange (rows : List ChannelStateRow) (peerId : String) (s : ControllerState τ π) :
      FeeStep s (handlePolicyChange rows peerId s).1

variable {a b : ControllerState τ π}

theorem FeeStep.inStep (h : FeeStep a b) (ha : InStep id a) : InStep id b := by
  cases h with
  | @cycle ω K d s t decisions hrun =>
    have hcycle : wp (runFeeCycle K d) (Post.returns fun _ t => t.InStep id) s :=
      runFeeCycle_inStep ha
    have hkept := returned hcycle hrun
    exact hkept
  | wakeAll profile now => exact wakeAllSleepingChannels_inStep profile now ha
  | vegasWake profile now => exact maybeWakeForVegasSpike_inStep profile now ha
  | policyChange rows peerId => exact handlePolicyChange_inStep rows peerId ha

/-- A channel whose records agree, or that has none yet, never falls out of step. -/
theorem records_stay_in_step (h : Relation.ReflTransGen FeeStep a b) (ha : InStep id a) :
    InStep id b := by
  induction h with
  | refl => exact ha
  | tail _ hstep ih => exact hstep.inStep ih

end Runs

section Lone

def InStepWhereBoth (s : ControllerState τ π) : Prop :=
  ∀ channelId c f, s.cycleStates.get? channelId = some c → s.feeStates.get? channelId = some f →
    c.shared = f.shared

/-- A record in the middle of its observation window, and nothing on the other side. -/
def loneState : ChannelCycleState := { ChannelCycleState.default with lastUpdate := 900 }

def loneRun : CycleRun Unit Unit Unit :=
  ⟨{ ControllerState.new with cycleStates := Dict.insert .empty "1x1x1" loneState }, .fresh (), []⟩

def quietDeps : CycleDeps Unit Unit Unit := plainDeps (fun _ => always none) (always 1000)

def returnsDecisions (d : CycleDeps Unit Unit Unit) (s : CycleRun Unit Unit Unit) : Bool :=
  match (runFeeCycle plainKernel d s).1 with
  | .ok _ => true
  | _ => false

theorem returned_step {d : CycleDeps Unit Unit Unit} {s : CycleRun Unit Unit Unit}
    (h : returnsDecisions d s = true) :
    FeeStep s.state (runFeeCycle plainKernel d s).2.state := by
  rw [returnsDecisions] at h
  cases hrun : runFeeCycle plainKernel d s with
  | mk r t =>
    rw [hrun] at h
    cases r with
    | ok decisions => exact .cycle plainKernel d hrun
    | err e => cases h
    | panic => cases h

/-- The other record is made with the default timer. -/
theorem lone_record_out_of_step : ∃ a b : ControllerState Unit Unit,
    InStepWhereBoth a ∧ Relation.ReflTransGen FeeStep a b ∧ ¬ InStepWhereBoth b := by
  have hreturns : returnsDecisions quietDeps loneRun = true := by decide +kernel
  refine ⟨loneRun.state, _, ?_, .single (returned_step hreturns), fun h => ?_⟩
  · intro channelId c f _ hf
    cases hf
  · have htimers : (((runFeeCycle plainKernel quietDeps loneRun).2.state.cycleStates.get?
          "1x1x1").map ChannelCycleState.lastUpdate,
        ((runFeeCycle plainKernel quietDeps loneRun).2.state.feeStates.get? "1x1x1").map
          ChannelFeeState.lastUpdate) = (some 900, some 0) := by decide +kernel
    obtain ⟨hcycle, hfee⟩ := Prod.mk.inj htimers
    obtain ⟨c, hc, hc900⟩ := Option.map_eq_some_iff.mp hcycle
    obtain ⟨f, hf, hf0⟩ := Option.map_eq_some_iff.mp hfee
    have htimer := congrArg SharedRecord.lastUpdate (h _ c f hc hf)
    change c.lastUpdate = f.lastUpdate at htimer
    omega

def sleepingCycle : ChannelCycleState :=
  { ChannelCycleState.default with
    isSleeping := true
    sleepUntil := 90000
    lastUpdate := 900
    lastFeePpm := 100
    lastBroadcastFeePpm := 100
    lastBroadcastAt := 900 }

def sleepingFee : ChannelFeeState Unit Unit :=
  { ChannelFeeState.default () () with
    isSleeping := true
    sleepUntil := 90000
    lastUpdate := 900
    lastFeePpm := 100
    lastBroadcastFeePpm := 100
    lastBroadcastAt := 900 }

def asleep : ControllerState Unit Unit :=
  { (ControllerState.new : ControllerState Unit Unit) with
    cycleStates := Dict.insert .empty "1x1x1" sleepingCycle
    feeStates := Dict.insert .empty "1x1x1" sleepingFee }

def awake : CycleRun Unit Unit Unit :=
  ⟨(handlePolicyChange [plainRow "1x1x1" "a"] "a" asleep).1, .fresh (), []⟩

def staticDeps : CycleDeps Unit Unit Unit :=
  plainDeps (fun _ => always (some (staticPolicy 500))) (always 10000)

/-- A new policy wakes the channel, and the cycle after it sets the fee of the policy. -/
theorem woken_channel_in_step : ∃ b : ControllerState Unit Unit,
    Relation.ReflTransGen FeeStep asleep b ∧ InStep "1x1x1" b ∧
      (b.cycleStates.get? "1x1x1").map ChannelCycleState.shared =
        some ⟨false, 0, 10000, 500, 500, 10000, 0⟩ := by
  have hwake : FeeStep asleep awake.state := .policyChange [plainRow "1x1x1" "a"] "a" asleep
  have hcycle := returned_step (d := staticDeps) (s := awake) (by decide +kernel)
  have hrun := Relation.ReflTransGen.tail (.single hwake) hcycle
  exact ⟨_, hrun, records_stay_in_step hrun rfl, by decide +kernel⟩

end Lone

end FeeCycle
