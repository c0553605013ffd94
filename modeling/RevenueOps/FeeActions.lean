import RevenueOps.FeeCycleFailures

/-! What the recorder, the governor and the tracked broadcast fees see of a cycle. Each of the three
ways to a fee change sends one fee through the clamp, the governor and the recorder, and books it in
both states; every other way out of a visit sends nothing. -/
namespace FeeCycle

open FallibleState KeyedTable PeerPolicies

variable {ω τ π α β : Type} {K : Kernel τ π} {d : CycleDeps ω τ π}

/-- A recording executor under an enabled governor, with limits that are in order. -/
structure Recording (d : CycleDeps ω τ π) : Prop where
  executor : d.executor = .recording
  authorizer : d.authorizer.isSome = true
  governor : d.cfg.econGovernorFeesEnabled = true
  minNonneg : 0 ≤ d.cfg.minFeePpm
  minLeMax : d.cfg.minFeePpm ≤ d.cfg.maxFeePpm
  maxLe : d.cfg.maxFeePpm ≤ 100000

section Ledgers

def World.recorded (w : World ω) : List (String × ℤ) :=
  w.actions.map fun a => (a.request.id, (a.request.feeppm : ℤ))

/-- The channel and the fee of each question to the governor that was authorized. -/
def World.approved (w : World ω) : List (String × ℤ) :=
  (w.asked.filter fun q => q.2.authorized).map fun q => (q.1.channelId, q.1.feePpm)

structure World.Sent (fees : List (String × ℤ)) (w w' : World ω) : Prop where
  recorded : w'.recorded = w.recorded ++ fees
  approved : w'.approved = w.approved ++ fees

theorem World.Sent.of_eq {w w' : World ω} (hactions : w'.actions = w.actions)
    (hasked : w'.asked = w.asked) : World.Sent [] w w' := by
  constructor
  · simp [World.recorded, hactions]
  · simp [World.approved, hasked]

theorem World.Sent.refl (w : World ω) : World.Sent [] w w := .of_eq rfl rfl

theorem World.Sent.trans {xs ys : List (String × ℤ)} {w w' w'' : World ω}
    (h : World.Sent xs w w') (k : World.Sent ys w' w'') : World.Sent (xs ++ ys) w w'' := by
  constructor
  · rw [k.recorded, h.recorded, List.append_assoc]
  · rw [k.approved, h.approved, List.append_assoc]

end Ledgers

section Submit

variable {request : FeeExecutionRequest}

def FeeExecutionRequest.fee (request : FeeExecutionRequest) (cfg : FeeCfgSnapshot) : ℤ :=
  clampFee cfg request.decision request.decision.feePpm

theorem authorizeFee_asks (h : Recording d) (reason : String) (code : FeeReasonCode)
    (w : World ω) :
    wp (authorizeFee d request reason code) (Post.returns fun r w' =>
      w'.actions = w.actions ∧ ∃ q result, w'.asked = w.asked ++ [(q, result)] ∧
        q.channelId = request.decision.channelId ∧ q.feePpm = request.fee d.cfg ∧
        result.authorized = r.1) w := by
  obtain ⟨authorize, ha⟩ := Option.isSome_iff_exists.mp h.authorizer
  unfold authorizeFee
  rw [ha]
  apply returns_ite
  · intro _
    apply returns_of
    intro r w' hrun
    obtain ⟨now, w₁, hnow, hrun⟩ := bind_ok hrun
    obtain ⟨env, -, rfl⟩ := on_ok hnow
    obtain ⟨result, w₂, hconsult, hrun⟩ := bind_ok hrun
    cases hrun
    unfold consult at hconsult
    split at hconsult
    · cases hconsult
      exact ⟨rfl, _, _, rfl, rfl, rfl, rfl⟩
    · cases hconsult
  · intro hoff
    exact absurd (by simp [decideSetChannelFee_none, h.governor]) hoff

theorem executeFee_records (h : Recording d) (w : World ω) :
    wp (executeFee d request) (Post.returns fun decision w' =>
      decision.success = true ∧ decision.clampedFeePpm = request.fee d.cfg ∧ w'.asked = w.asked ∧
        w'.recorded = w.recorded ++
          (if request.authorized then [(request.decision.channelId, request.fee d.cfg)]
            else [])) w := by
  unfold executeFee
  rw [h.executor]
  apply returns_of
  intro decision w' hrun
  obtain ⟨⟨decided, action⟩, w₁, hrecord, hrun⟩ := bind_ok hrun
  obtain ⟨_, w₂, hmodify, hrun⟩ := bind_ok hrun
  cases hmodify
  cases hrun
  have hboth : recordedExecution request d.cfg = .ok (decision, action) ∧ w₁ = w := by
    cases hr : recordedExecution request d.cfg with
    | error e =>
      rw [hr] at hrecord
      cases hrecord
    | ok r =>
      rw [hr] at hrecord
      cases hrecord
      exact ⟨rfl, rfl⟩
  obtain ⟨hr, rfl⟩ := hboth
  obtain ⟨hdecided, hcase⟩ := recordedExecution_ok hr
  rw [decideSetChannelFee_none] at hdecided
  subst hdecided
  refine ⟨rfl, rfl, rfl, ?_⟩
  rcases hcase with ⟨hoff, rfl⟩ | ⟨hon, a, rfl, hid, hfee⟩
  · have hoff' : request.authorized = false := by simpa using hoff
    simp [World.recorded, hoff']
  · have hon' : request.authorized = true := by simpa using hon
    simp [World.recorded, hon', hid, hfee, FeeExecutionRequest.fee]

/-- Clamp, governor and recorder agree on the fee, and a refused one is not recorded. -/
theorem submit_sends (h : Recording d) (reason : String) (code : FeeReasonCode) (w : World ω) :
    wp (submit d request reason code) (Post.returns fun sent w' =>
      sent.decision.clampedFeePpm = request.fee d.cfg ∧
        World.Sent (if sent.success then [(request.decision.channelId, request.fee d.cfg)] else [])
          w w') w := by
  apply returns_bind (authorizeFee_asks h reason code w)
  rintro ⟨authorized, governed⟩ w₁ ⟨hactions, q, result, hasked, hid, hfee, hresult⟩
  apply returns_bind (executeFee_records h w₁)
  rintro decision w₂ ⟨hsuccess, hclamped, hkept, hrecorded⟩
  apply returns_pure
  have hsent : (authorized && decision.success) = authorized := by simp [hsuccess]
  refine ⟨hclamped, ?_, ?_⟩
  · rw [hsent, hrecorded]
    simp [World.recorded, hactions, FeeExecutionRequest.fee]
  · subst hresult
    cases hr : result.authorized with
    | true => simp [World.approved, hkept, hasked, hr, hid, hfee, hsuccess]
    | false => simp [World.approved, hkept, hasked, hr]

end Submit

section Limits

def ChannelMinimum (d : CycleDeps ω τ π) (row : ChannelStateRow) (info : ChannelInfo)
    (eff : ℤ) : Prop :=
  ∃ ctx window w w', ctx.row = row ∧ ctx.info = info ∧
    flowWindow d ctx w = (.ok window, w') ∧ eff = channelEffectiveMin d.cfg row info window

/-- Not above the maximum, nor below the smaller of the minimum and an effective minimum. -/
structure WithinLimits (d : CycleDeps ω τ π) (row : ChannelStateRow) (info : ChannelInfo)
    (fee : ℤ) : Prop where
  lower : d.cfg.minFeePpm ≤ fee ∨
    ∃ eff, ChannelMinimum d row info eff ∧ min d.cfg.minFeePpm eff ≤ fee
  upper : fee ≤ d.cfg.maxFeePpm

variable {row : ChannelStateRow} {info : ChannelInfo} {request : FeeExecutionRequest}

theorem withinLimits_plain (h : Recording d) (henforce : request.decision.enforceLimits = true)
    (hmin : request.decision.effectiveMinFeePpm = none) :
    WithinLimits d row info (request.fee d.cfg) := by
  have hb := clampFee_bounds h.minNonneg h.minLeMax henforce request.decision.feePpm
  rw [hmin] at hb
  exact ⟨.inl hb.1, hb.2⟩

theorem withinLimits_effective (h : Recording d) {eff : ℤ}
    (henforce : request.decision.enforceLimits = true)
    (hmin : request.decision.effectiveMinFeePpm = some eff) (heff : ChannelMinimum d row info eff) :
    WithinLimits d row info (request.fee d.cfg) := by
  have hb := clampFee_bounds h.minNonneg h.minLeMax henforce request.decision.feePpm
  rw [hmin] at hb
  refine ⟨.inr ⟨eff, heff, ?_⟩, hb.2⟩
  have hle : min d.cfg.minFeePpm eff ≤ econMinFeePpm d.cfg (some eff) := by
    simp only [econMinFeePpm]
    omega
  exact hle.trans hb.1

theorem rails_minimum (ctx : AdjustCtx) (vegas : VegasReflexState) (currentFeePpm now : ℤ) (w : ω) :
    wp (rails K d ctx vegas currentFeePpm now) (Post.returns fun r _ =>
      ChannelMinimum d ctx.row ctx.info r.effectiveMinFeePpm) w := by
  apply returns_of
  intro r w' hrun
  obtain ⟨roi, w₁, -, hrun⟩ := bind_ok hrun
  obtain ⟨window, w₂, hwindow, hrun⟩ := bind_ok hrun
  obtain ⟨latency, w₃, -, hrun⟩ := bind_ok hrun
  obtain ⟨rebalance, w₄, -, hrun⟩ := bind_ok hrun
  obtain ⟨cost, w₅, -, hrun⟩ := bind_ok hrun
  obtain ⟨ceiling, w₆, -, hrun⟩ := bind_ok hrun
  cases hrun
  exact ⟨ctx, window, w₁, w₂, rfl, rfl, hwindow, rfl⟩

end Limits

section Channel

variable {id : String} {onChain : ℤ} {fee : Option ℤ} {row : ChannelStateRow} {info : ChannelInfo}

/-- A sent fee is tracked; without one the tracked fee stays or is taken back to the chain's. -/
def Tracks (onChain : ℤ) (fee : Option ℤ) (before after : ℤ) : Prop :=
  match fee with
  | some f => after = f
  | none => after = before ∨ after = onChain

theorem Tracks.after {x y z : ℤ} (h : Tracks onChain none x y) (k : Tracks onChain fee y z) :
    Tracks onChain fee x z := by
  cases fee with
  | some f => exact k
  | none =>
    rcases k with rfl | rfl
    · exact h
    · exact .inr rfl

structure Acted (id : String) (onChain : ℤ) (fee : Option ℤ) (s t : ChannelRun ω τ π) : Prop where
  sent : World.Sent (fee.toList.map fun f => (id, f)) s.world t.world
  cycleFee : Tracks onChain fee s.cycle.lastBroadcastFeePpm t.cycle.lastBroadcastFeePpm
  feeFee : Tracks onChain fee s.fee.lastBroadcastFeePpm t.fee.lastBroadcastFeePpm

theorem Acted.after {s t u : ChannelRun ω τ π} (h : Acted id onChain none s t)
    (k : Acted id onChain fee t u) : Acted id onChain fee s u where
  sent := by simpa using h.sent.trans k.sent
  cycleFee := h.cycleFee.after k.cycleFee
  feeFee := h.feeFee.after k.feeFee

theorem Moved.acted {added : List Window} {timer : ℤ} {s t : ChannelRun ω τ π}
    (h : Moved added timer s t) : Acted id onChain none s t :=
  ⟨.of_eq h.actions h.asked, .inl h.cycleFee, .inl h.feeFee⟩

/-- An adjustment's fee lies within the limits, and is the one that was sent. -/
def Adjusts (d : CycleDeps ω τ π) (row : ChannelStateRow) (info : ChannelInfo) (r : AdjustResult)
    (s t : ChannelRun ω τ π) : Prop :=
  Acted row.channelId info.feeProportionalMillionths
    (r.adjustment.map FeeAdjustmentRec.newFeePpm) s t ∧
  ∀ a, r.adjustment = some a → a.channelId = row.channelId ∧ WithinLimits d row info a.newFeePpm

theorem Adjusts.none {r : AdjustResult} {s t : ChannelRun ω τ π} (hr : r.adjustment = none)
    (h : Acted row.channelId info.feeProportionalMillionths none s t) :
    Adjusts d row info r s t := by
  refine ⟨by simpa [hr] using h, fun a ha => ?_⟩
  rw [hr] at ha
  cases ha

theorem Adjusts.after {r : AdjustResult} {s t u : ChannelRun ω τ π}
    (h : Acted row.channelId info.feeProportionalMillionths Option.none s t)
    (k : Adjusts d row info r t u) : Adjusts d row info r s u := ⟨h.after k.1, k.2⟩

theorem submit_in_channel (h : Recording d) (request : FeeExecutionRequest) (reason : String)
    (code : FeeReasonCode) (s : ChannelRun ω τ π) :
    wp (Eff.on ChannelRun.broadcast (submit d request reason code)) (Post.returns fun sent t =>
      sent.decision.clampedFeePpm = request.fee d.cfg ∧ t.cycle = s.cycle ∧ t.fee = s.fee ∧
        World.Sent (if sent.success then [(request.decision.channelId, request.fee d.cfg)] else [])
          s.world t.world) s := by
  apply returns_on
  apply returns_mono (submit_sends h reason code s.world)
  rintro sent w ⟨hfee, hsent⟩
  exact ⟨hfee, rfl, rfl, hsent⟩

theorem createGossipRefreshAdjustment_acts (h : Recording d) (currentFeePpm now : ℤ)
    (s : ChannelRun ω τ π) :
    wp (createGossipRefreshAdjustment d row currentFeePpm now)
      (Post.returns fun r t => Adjusts d row info r s t) s := by
  unfold createGossipRefreshAdjustment
  split
  · exact returns_pure (.none rfl (Steady.refl s).acted)
  · rename_i nudge _
    apply returns_after (steady_asking _)
    intro _ t₁ h₁
    apply returns_bind (submit_in_channel h _ _ _ t₁)
    rintro sent t₂ ⟨hfee, hcycle, hstate, hsent⟩
    apply returns_ite
    · intro hsuccess
      rw [if_pos hsuccess] at hsent
      apply returns_after (steady_asking _)
      intro _ t₃ h₃
      apply returns_after (steady_asking _)
      intro _ t₄ h₄
      apply returns_modify_bind
      apply returns_pure
      have hquiet : World.Sent [] t₂.world t₄.world :=
        .of_eq (h₄.actions.trans h₃.actions) (h₄.asked.trans h₃.asked)
      refine ⟨h₁.acted.after ⟨?_, rfl, rfl⟩, ?_⟩
      · change World.Sent _ t₁.world t₄.world
        simpa [hfee, refreshRequest, feeExecutionRequest] using hsent.trans hquiet
      · intro a ha
        cases ha
        refine ⟨rfl, ?_⟩
        dsimp only
        rw [hfee]
        exact withinLimits_plain h rfl rfl
    · intro hrefused
      rw [if_neg hrefused] at hsent
      apply returns_pure
      refine .none rfl (h₁.acted.after ⟨by simpa using hsent, ?_, ?_⟩)
      · exact .inl (by rw [hcycle])
      · exact .inl (by rw [hstate])

theorem holdOrRefresh_acts (h : Recording d) (currentFeePpm now : ℤ)
    {hold : ChannelRun ω τ π → ChannelRun ω τ π}
    (hhold : ∀ s, Acted row.channelId info.feeProportionalMillionths none s (hold s))
    (s : ChannelRun ω τ π) :
    wp (holdOrRefresh d row currentFeePpm now hold)
      (Post.returns fun r t => Adjusts d row info r s t) s := by
  apply returns_read_bind
  apply returns_after (steady_asking _)
  intro due t₁ h₁
  have hrefresh : wp (refreshWhenDue d row currentFeePpm now due)
      (Post.returns fun r t => Adjusts d row info r t₁ t) t₁ := by
    apply returns_ite
    · exact fun _ => createGossipRefreshAdjustment_acts h currentFeePpm now t₁
    · exact fun _ => returns_pure (.none rfl (Steady.refl t₁).acted)
  apply returns_bind hrefresh
  intro refreshed t₂ h₂
  have hboth : Adjusts d row info refreshed s t₂ := h₂.after h₁.acted
  apply returns_ite
  · intro _
    exact returns_pure hboth
  · intro hnone
    have hr : refreshed.adjustment = none := by simpa using hnone
    apply returns_modify_bind
    apply returns_pure
    have hheld := hboth.1
    rw [hr] at hheld
    exact .none hr (hheld.after (hhold t₂))

theorem broadcastChange_acts (h : Recording d) (sc : Scene) (t : Target)
    (heff : ChannelMinimum d sc.ctx.row sc.ctx.info sc.rails.effectiveMinFeePpm)
    (s : ChannelRun ω τ π) :
    wp (broadcastChange K d sc t)
      (Post.returns fun r u => Adjusts d sc.ctx.row sc.ctx.info r s u) s := by
  apply returns_read_bind
  apply returns_bind (submit_in_channel h _ _ _ s)
  rintro sent t₁ ⟨hfee, hcycle, hstate, hsent⟩
  apply returns_ite
  · intro hsuccess
    rw [if_pos hsuccess] at hsent
    apply returns_after (steady_asking _)
    intro _ t₂ h₂
    have hsync :
        Within (Steady []) (syncExploration d (reasonCode sc t) : OnChannel ω τ π Unit) := by
      apply within_ite
      · intro _
        apply within_bind (steady_asking _)
        exact fun _ => steady_modify (fun _ => rfl) (fun _ => rfl) (fun _ => rfl) fun _ => rfl
      · exact fun _ => within_pure _
    apply returns_after hsync
    intro _ t₃ h₃
    apply returns_modify_bind
    apply returns_pure
    have hquiet : World.Sent [] t₁.world t₃.world :=
      .of_eq (h₃.actions.trans h₂.actions) (h₃.asked.trans h₂.asked)
    refine ⟨⟨?_, rfl, rfl⟩, ?_⟩
    · change World.Sent _ s.world t₃.world
      simpa [hfee, changeRequest, feeExecutionRequest, Scene.channelId] using hsent.trans hquiet
    · intro a ha
      cases ha
      refine ⟨rfl, ?_⟩
      dsimp only
      rw [hfee]
      exact withinLimits_effective h rfl rfl heff
  · intro hrefused
    rw [if_neg hrefused] at hsent
    apply returns_modify_bind
    apply returns_pure
    have hquiet : World.Sent [] s.world (restartTimer sc t₁).world := hsent
    refine .none rfl ⟨by simpa using hquiet, ?_, ?_⟩
    · exact .inl (by simp [restartTimer, hcycle])
    · exact .inl (by simp [restartTimer, hstate])

theorem settle_acts (h : Recording d) (sc : Scene) (t : Target)
    (hraw : sc.rawChainFee = sc.ctx.info.feeProportionalMillionths)
    (heff : ChannelMinimum d sc.ctx.row sc.ctx.info sc.rails.effectiveMinFeePpm)
    (s : ChannelRun ω τ π) :
    wp (settle K d sc t) (Post.returns fun r u => Adjusts d sc.ctx.row sc.ctx.info r s u) s := by
  have hpend : Acted sc.ctx.row.channelId sc.ctx.info.feeProportionalMillionths none s
      (pendTarget sc t s) := ⟨.refl _, .inl rfl, .inl rfl⟩
  apply returns_read_bind
  apply returns_ite
  · intro _
    apply returns_modify_bind
    refine returns_mono (holdOrRefresh_acts h _ _ (fun _ => ?_) (pendTarget sc t s))
      fun r u hu => hu.after hpend
    exact ⟨.refl _, .inl rfl, .inl rfl⟩
  · intro _
    apply returns_ite
    · intro _
      apply returns_modify_bind
      refine returns_mono (holdOrRefresh_acts h _ _ (fun _ => ?_) (pendTarget sc t s))
        fun r u hu => hu.after hpend
      exact ⟨.refl _, .inl rfl, .inl rfl⟩
    · intro _
      apply returns_ite
      · rintro ⟨hsame, -⟩
        apply returns_modify_bind
        apply returns_pure
        have hchain : t.newFeePpm = sc.ctx.info.feeProportionalMillionths := hsame.trans hraw
        exact .none rfl ⟨.refl _, .inr hchain, .inr hchain⟩
      · exact fun _ => broadcastChange_acts h sc t heff s

theorem adjustChannel_acts (h : Recording d) (ctx : AdjustCtx) (vegas : VegasReflexState)
    (isCongested isUnderExploration : Bool) (now : ℤ) (s : ChannelRun ω τ π) :
    wp (adjustChannel K d ctx vegas isCongested isUnderExploration now)
      (Post.returns fun r t => Adjusts d ctx.row ctx.info r s t) s := by
  apply returns_read_bind
  apply returns_after (sleepCheck_steady ctx isCongested now)
  intro woke t₁ h₁
  cases woke with
  | none => exact returns_pure (.none rfl h₁.acted)
  | some woke =>
    apply returns_after (observe_steady ctx _ now)
    intro obs t₂ h₂
    have hobserved : Steady [] s t₂ := h₁.trans h₂
    cases obs with
    | none => exact returns_pure (.none rfl hobserved.acted)
    | some obs =>
      have hrails (fee : ℤ) : wp (asking (rails K d ctx vegas fee now) : OnChannel ω τ π Rails)
          (Post.returns fun r t =>
            Steady [] t₂ t ∧ ChannelMinimum d ctx.row ctx.info r.effectiveMinFeePpm) t₂ :=
        returns_and (returns_of_within (steady_asking _) t₂)
          (returns_on (rails_minimum ctx vegas fee now _))
      apply returns_bind (hrails _)
      rintro r t₃ ⟨h₃, heff⟩
      have hquiet : Steady [] s t₃ := hobserved.trans h₃
      apply returns_bind (decideTarget_decides _ t₃)
      rintro target t₄ ⟨added, -, h₄⟩
      have hdecided := hquiet.andThen h₄
      cases target with
      | none => exact returns_pure (.none rfl hdecided.acted)
      | some target =>
        apply returns_mono (settle_acts h _ target rfl heff t₄)
        exact fun r u hu => hu.after hdecided.acted

end Channel

section Visit

variable {row : ChannelStateRow} {info : ChannelInfo}

def trackedCycleFee (s : CycleRun ω τ π) (id : String) : Option ℤ :=
  (s.state.cycleStates.get? id).map ChannelCycleState.lastBroadcastFeePpm

def trackedFee (s : CycleRun ω τ π) (id : String) : Option ℤ :=
  (s.state.feeStates.get? id).map ChannelFeeState.lastBroadcastFeePpm

/-- A sent fee is booked; without one the entry tracks what it tracked, or the fee on chain. A
channel without an entry tracks no fee, as one with fee zero. -/
def Books (onChain : ℤ) (fee before after : Option ℤ) : Prop :=
  match fee with
  | some f => after = some f
  | none => after.getD 0 = before.getD 0 ∨ after.getD 0 = onChain

theorem Books.after {onChain : ℤ} {fee x y z : Option ℤ} (h : Books onChain none x y)
    (k : Books onChain fee y z) : Books onChain fee x z := by
  cases fee with
  | some f => exact k
  | none =>
    rcases k with hk | hk
    · rcases h with h | h
      · exact .inl (hk.trans h)
      · exact .inr (hk.trans h)
    · exact .inr hk

structure Idles (id : String) (onChain : ℤ) (s t : CycleRun ω τ π) : Prop where
  sent : World.Sent [] s.world t.world
  cycleFee : Books onChain none (trackedCycleFee s id) (trackedCycleFee t id)
  feeFee : Books onChain none (trackedFee s id) (trackedFee t id)

variable {id : String} {onChain : ℤ}

instance : IsPreorder (CycleRun ω τ π) (Idles id onChain) where
  refl _ := ⟨.refl _, .inl rfl, .inl rfl⟩
  trans _ _ _ h k := ⟨by simpa using h.sent.trans k.sent, h.cycleFee.after k.cycleFee,
    h.feeFee.after k.feeFee⟩

theorem idles_asking (m : Ask ω α) :
    Within (Idles id onChain) (CycleRun.asking m : OnCycle ω τ π α) :=
  within_on fun _ _ => ⟨.of_eq rfl rfl, .inl rfl, .inl rfl⟩

theorem idles_read (f : CycleRun ω τ π → α) :
    Within (Idles id onChain) (Eff.read f : OnCycle ω τ π α) := within_read f

theorem idles_stamp (label : String) :
    Within (Idles id onChain) (stamp d label : OnCycle ω τ π ℤ) := by
  apply within_bind (idles_asking _)
  intro t
  apply within_bind
  · exact within_modify fun _ => ⟨.of_eq rfl rfl, .inl rfl, .inl rfl⟩
  · exact fun _ => within_pure _

theorem resyncBroadcastFee_cases (tracked actualFeePpm : ℤ) :
    resyncBroadcastFee tracked actualFeePpm = tracked ∨
      resyncBroadcastFee tracked actualFeePpm = actualFeePpm := by
  unfold resyncBroadcastFee
  split
  · exact .inr rfl
  · exact .inl rfl

theorem trackedCycleFee_getD (s : CycleRun ω τ π) (id : String) :
    (trackedCycleFee s id).getD 0 =
      ((s.state.cycleStates.get? id).getD .default).lastBroadcastFeePpm := by
  unfold trackedCycleFee
  cases s.state.cycleStates.get? id <;> rfl

theorem trackedFee_getD (s : CycleRun ω τ π) (id : String) :
    (trackedFee s id).getD 0 = ((s.state.feeStates.get? id).getD
      (.default K.defaultThompson K.defaultPid)).lastBroadcastFeePpm := by
  unfold trackedFee
  cases s.state.feeStates.get? id <;> rfl

theorem idles_ensureCycleState :
    Within (Idles id onChain) (Eff.modify (ensureCycleState id onChain) : OnCycle ω τ π Unit) := by
  refine within_modify fun s => ⟨.of_eq rfl rfl, ?_, .inl rfl⟩
  have hafter : (trackedCycleFee (ensureCycleState id onChain s) id).getD 0 =
      resyncBroadcastFee ((trackedCycleFee s id).getD 0) onChain := by
    rw [trackedCycleFee_getD s id]
    simp [trackedCycleFee, ensureCycleState, ChannelCycleState.resync]
  have hcases := resyncBroadcastFee_cases ((trackedCycleFee s id).getD 0) onChain
  rwa [← hafter] at hcases

theorem idles_ensureFeeState :
    Within (Idles id onChain) (Eff.modify (ensureFeeState K id onChain) : OnCycle ω τ π Unit) := by
  refine within_modify fun s => ⟨.of_eq rfl rfl, .inl rfl, ?_⟩
  have hafter : (trackedFee (ensureFeeState K id onChain s) id).getD 0 =
      resyncBroadcastFee ((trackedFee s id).getD 0) onChain := by
    rw [trackedFee_getD (K := K) s id]
    simp [trackedFee, ensureFeeState, ChannelFeeState.resync]
  have hcases := resyncBroadcastFee_cases ((trackedFee s id).getD 0) onChain
  rwa [← hafter] at hcases

def ChannelResult.fee (r : ChannelResult) : Option ℤ :=
  match r.outcome with
  | .adjusted a => some a.newFeePpm
  | .skipped _ => none

structure Visited (d : CycleDeps ω τ π) (row : ChannelStateRow) (info : ChannelInfo)
    (r : ChannelResult) (s t : CycleRun ω τ π) : Prop where
  sent : World.Sent (r.fee.toList.map fun f => (row.channelId, f)) s.world t.world
  cycleFee : Books info.feeProportionalMillionths r.fee (trackedCycleFee s row.channelId)
    (trackedCycleFee t row.channelId)
  feeFee : Books info.feeProportionalMillionths r.fee (trackedFee s row.channelId)
    (trackedFee t row.channelId)
  limits : ∀ a, r.outcome = .adjusted a →
    a.channelId = row.channelId ∧ WithinLimits d row info a.newFeePpm

theorem Idles.visited {s t u : CycleRun ω τ π} {r : ChannelResult}
    (h : Idles row.channelId info.feeProportionalMillionths s t) (k : Visited d row info r t u) :
    Visited d row info r s u :=
  ⟨by simpa using h.sent.trans k.sent, h.cycleFee.after k.cycleFee, h.feeFee.after k.feeFee,
    k.limits⟩

theorem Idles.skipped {s t : CycleRun ω τ π} {reason : SkipReason} {governed : Option GovernedTrace}
    (h : Idles row.channelId info.feeProportionalMillionths s t) :
    Visited d row info ⟨.skipped reason, governed⟩ s t :=
  ⟨by simpa [ChannelResult.fee] using h.sent, h.cycleFee, h.feeFee, fun _ ha => by cases ha⟩

theorem visited_after {s : CycleRun ω τ π} {m : OnCycle ω τ π α}
    {k : α → OnCycle ω τ π ChannelResult}
    (hm : Within (Idles row.channelId info.feeProportionalMillionths) m)
    (hk : ∀ a t, wp (k a) (Post.returns fun r u => Visited d row info r t u) t) :
    wp (m >>= k) (Post.returns fun r u => Visited d row info r s u) s := by
  apply returns_bind (returns_of_within hm s)
  intro a t h
  exact returns_mono (hk a t) fun _ _ hv => h.visited hv

def AdjustsEntry (d : CycleDeps ω τ π) (row : ChannelStateRow) (info : ChannelInfo)
    (r : AdjustResult) (s t : CycleRun ω τ π) : Prop :=
  ∀ outcome governed, (∀ a, outcome = .adjusted a → r.adjustment = some a) →
    (∀ reason, outcome = .skipped reason → r.adjustment = none) →
      Visited d row info ⟨outcome, governed⟩ s t

theorem adjustChannel_in_place (h : Recording d) (ctx : AdjustCtx) (vegas : VegasReflexState)
    (isCongested isUnderExploration : Bool) (now : ℤ) (s : CycleRun ω τ π) :
    wp (Eff.on (CycleRun.channel K ctx.row.channelId)
      (adjustChannel K d ctx vegas isCongested isUnderExploration now))
      (Post.returns fun r t => AdjustsEntry d ctx.row ctx.info r s t) s := by
  apply returns_on
  apply returns_mono (adjustChannel_acts h ctx vegas isCongested isUnderExploration now _)
  rintro r c ⟨hacted, hlimits⟩ outcome governed hadjusted hskipped
  have hfee : (⟨outcome, governed⟩ : ChannelResult).fee =
      r.adjustment.map FeeAdjustmentRec.newFeePpm := by
    cases outcome with
    | adjusted a => simp [ChannelResult.fee, hadjusted a rfl]
    | skipped reason => simp [ChannelResult.fee, hskipped reason rfl]
  have hcycle : trackedCycleFee ((CycleRun.channel K ctx.row.channelId).put c s) ctx.row.channelId =
      some c.cycle.lastBroadcastFeePpm := by simp [trackedCycleFee, CycleRun.channel]
  have hstate : trackedFee ((CycleRun.channel K ctx.row.channelId).put c s) ctx.row.channelId =
      some c.fee.lastBroadcastFeePpm := by simp [trackedFee, CycleRun.channel]
  refine ⟨?_, ?_, ?_, fun a ha => hlimits a (hadjusted a ha)⟩
  · rw [hfee]
    exact hacted.sent
  · rw [hfee, hcycle]
    have hbooked := hacted.cycleFee
    cases hr : r.adjustment with
    | some a =>
      rw [hr] at hbooked
      exact congrArg some hbooked
    | none =>
      rw [hr] at hbooked
      rw [Option.map_none, Books, trackedCycleFee_getD]
      exact hbooked
  · rw [hfee, hstate]
    have hbooked := hacted.feeFee
    cases hr : r.adjustment with
    | some a =>
      rw [hr] at hbooked
      exact congrArg some hbooked
    | none =>
      rw [hr] at hbooked
      rw [Option.map_none, Books, trackedFee_getD (K := K)]
      exact hbooked

theorem Idles.adjusts {s t u : CycleRun ω τ π} {r : AdjustResult}
    (h : Idles row.channelId info.feeProportionalMillionths s t)
    (k : AdjustsEntry d row info r t u) : AdjustsEntry d row info r s u :=
  fun outcome governed ha hs => h.visited (k outcome governed ha hs)

theorem adjustChannelFee_acts (h : Recording d) (ctx : AdjustCtx) (evaluatedAt : ℤ)
    (s : CycleRun ω τ π) :
    wp (adjustChannelFee K d ctx evaluatedAt)
      (Post.returns fun r t => AdjustsEntry d ctx.row ctx.info r s t) s := by
  have hquiet {α : Type} {m : OnCycle ω τ π α} {k : α → OnCycle ω τ π AdjustResult}
      {s : CycleRun ω τ π}
      (hm : Within (Idles ctx.row.channelId ctx.info.feeProportionalMillionths) m)
      (hk : ∀ a t, wp (k a) (Post.returns fun r u => AdjustsEntry d ctx.row ctx.info r t u) t) :
      wp (m >>= k) (Post.returns fun r u => AdjustsEntry d ctx.row ctx.info r s u) s := by
    apply returns_bind (returns_of_within hm s)
    intro a t ht
    exact returns_mono (hk a t) fun _ _ hv => ht.adjusts hv
  apply hquiet (idles_asking _)
  intro isUnderExploration _
  apply hquiet (idles_stamp _)
  intro now _
  apply hquiet idles_ensureCycleState
  intro _ _
  apply hquiet idles_ensureFeeState
  intro _ _
  apply hquiet (idles_read _)
  intro vegas t
  exact adjustChannel_in_place h ctx vegas _ isUnderExploration now t

theorem dynamicBranch_acts (h : Recording d) (scope : CycleScope) (row : ChannelStateRow)
    (info : ChannelInfo) (policy : Option PeerPolicy) (s : CycleRun ω τ π) :
    wp (dynamicBranch K d scope row info policy)
      (Post.returns fun r t => Visited d row info r s t) s := by
  apply visited_after (idles_stamp _)
  intro now _
  apply visited_after idles_ensureCycleState
  intro _ _
  apply visited_after (idles_read _)
  intro pre _
  apply visited_after (idles_read _)
  intro epoch _
  apply visited_after (idles_asking _)
  intro hint t
  apply returns_bind (adjustChannelFee_acts h _ now t)
  intro adjusted u hu
  cases ha : adjusted.adjustment with
  | some a =>
    apply returns_pure
    refine hu _ _ (fun b hb => ?_) fun reason hs => by cases hs
    cases hb
    exact ha
  | none =>
    apply returns_read_bind
    apply returns_pure
    exact hu _ _ (fun b hb => by cases hb) fun _ _ => ha

/-- The end of a static change: both entries are there, and track the fee that was sent. -/
theorem static_visited (hkey : info.channelId = row.channelId) {peerId : String} {fee now : ℤ}
    {governed : Option GovernedTrace} {s t : CycleRun ω τ π}
    (hsent : World.Sent [(row.channelId, fee)] s.world t.world)
    (hlimits : WithinLimits d row info fee) :
    wp (Eff.on (CycleRun.channel K info.channelId) (Eff.modify (syncStatic fee now)) >>= fun _ =>
      pure ⟨.adjusted ⟨info.channelId, peerId, info.feeProportionalMillionths, fee,
        "Policy: STATIC fee override", FeeReasonCode.policyStatic.asStr⟩, governed⟩ :
          OnCycle ω τ π ChannelResult)
      (Post.returns fun r u => Visited d row info r s u)
      (ensureFeeState K info.channelId fee (ensureCycleState info.channelId fee t)) := by
  rw [hkey]
  apply returns_of
  intro r u hrun
  obtain ⟨_, v, hsync, hrun⟩ := bind_ok hrun
  obtain ⟨c, hc, rfl⟩ := on_ok hsync
  cases hc
  cases hrun
  refine ⟨hsent, ?_, ?_, fun a ha => ?_⟩
  · simp [Books, trackedCycleFee, CycleRun.channel, syncStatic, ChannelResult.fee]
  · simp [Books, trackedFee, CycleRun.channel, syncStatic, ChannelResult.fee]
  · cases ha
    exact ⟨rfl, hlimits⟩

theorem staticPolicyBranch_acts (h : Recording d) (peerId : String) (target : ℤ)
    (hkey : info.channelId = row.channelId) (s : CycleRun ω τ π) :
    wp (staticPolicyBranch K d info peerId target)
      (Post.returns fun r t => Visited d row info r s t) s := by
  have hstay : Idles row.channelId info.feeProportionalMillionths s s := refl s
  apply returns_ite
  · exact fun _ => returns_pure hstay.skipped
  · intro _
    have hsubmit := returns_on (l := CycleRun.broadcast) (s := s)
      (f := fun sent (t : CycleRun ω τ π) => t.state = s.state ∧
        sent.decision.clampedFeePpm = (staticRequest d.cfg info target).fee d.cfg ∧
          World.Sent (if sent.success then
            [(info.channelId, (staticRequest d.cfg info target).fee d.cfg)]
              else []) s.world t.world)
      (returns_mono (submit_sends h "Policy: STATIC" .policyStatic s.world)
        fun _ _ hs => ⟨rfl, hs.1, hs.2⟩)
    have hstamp : ∀ label, Within (Idles row.channelId info.feeProportionalMillionths)
        (stamp d label : OnCycle ω τ π ℤ) := fun label => idles_stamp label
    apply returns_bind hsubmit
    rintro sent t₁ ⟨hstate, hfee, hsent⟩
    apply returns_ite
    · intro hsuccess
      rw [if_pos hsuccess] at hsent
      apply returns_bind (returns_of_within (hstamp _) t₁)
      intro _ t₂ h₂
      apply returns_bind (returns_of_within (hstamp _) t₂)
      intro now t₃ h₃
      apply returns_modify_bind
      apply returns_modify_bind
      have hquiet : World.Sent [] t₁.world t₃.world := by simpa using h₂.sent.trans h₃.sent
      have hworld := hsent.trans hquiet
      rw [List.append_nil, ← hfee, hkey] at hworld
      refine static_visited hkey hworld ?_
      rw [hfee]
      exact withinLimits_plain h rfl rfl
    · intro hrefused
      rw [if_neg hrefused] at hsent
      apply returns_pure
      refine Idles.skipped ⟨hsent, ?_, ?_⟩
      · exact .inl (by simp [trackedCycleFee, hstate])
      · exact .inl (by simp [trackedFee, hstate])

theorem processChannel_acts (h : Recording d) (scope : CycleScope)
    (hkey : info.channelId = row.channelId) (s : CycleRun ω τ π) :
    wp (processChannel K d scope row info)
      (Post.returns fun r t => Visited d row info r s t) s := by
  apply visited_after (idles_asking _)
  intro overlay t
  have hstay (u : CycleRun ω τ π) : Idles row.channelId info.feeProportionalMillionths u u := refl u
  apply returns_ite
  · exact fun _ => returns_pure (hstay t).skipped
  · intro _
    apply visited_after (idles_asking _)
    intro policy u
    cases policy with
    | none => exact dynamicBranch_acts h scope row info none u
    | some p =>
      dsimp only
      split
      · exact returns_pure (hstay u).skipped
      · exact staticPolicyBranch_acts h row.peerId _ hkey u
      · exact dynamicBranch_acts h scope row info (some p) u

end Visit

section Rows

def broadcasts (decisions : List FeeDecision) : List (String × ℤ) :=
  (decisions.filter FeeDecision.wouldBroadcast).map fun d => (d.channelId, d.newFeePpm)

theorem broadcasts_append (xs ys : List FeeDecision) :
    broadcasts (xs ++ ys) = broadcasts xs ++ broadcasts ys := by simp [broadcasts]

def KeepsOrReads (channels : ChannelsInfo) (id : String) (before after : Option ℤ) : Prop :=
  after.getD 0 = before.getD 0 ∨
    ∃ info, channels.find? id = some info ∧ after.getD 0 = info.feeProportionalMillionths

structure Looped (d : CycleDeps ω τ π) (channels : ChannelsInfo) (rows : List ChannelStateRow)
    (decisions : List FeeDecision) (s t : CycleRun ω τ π) : Prop where
  sent : World.Sent (broadcasts decisions) s.world t.world
  booked : ∀ b ∈ broadcasts decisions, ∃ row ∈ rows, ∃ info, b.1 = row.channelId ∧
    channels.find? row.channelId = some info ∧ WithinLimits d row info b.2 ∧
    trackedCycleFee t b.1 = some b.2 ∧ trackedFee t b.1 = some b.2
  quiet : ∀ id, id ∉ (broadcasts decisions).map Prod.fst →
    KeepsOrReads channels id (trackedCycleFee s id) (trackedCycleFee t id) ∧
      KeepsOrReads channels id (trackedFee s id) (trackedFee t id)

variable {channels : ChannelsInfo} {row : ChannelStateRow} {rows : List ChannelStateRow}

theorem Local.tracked {s t : CycleRun ω τ π} {id j : String} (h : Local id s t) (hj : j ≠ id) :
    trackedCycleFee t j = trackedCycleFee s j ∧ trackedFee t j = trackedFee s j := by
  simp [trackedCycleFee, trackedFee, h.cycles j hj, h.fees j hj]

theorem Looped.none {s : CycleRun ω τ π} : Looped d channels rows [] s s where
  sent := .refl _
  booked b hb := by simp [broadcasts] at hb
  quiet _ _ := ⟨.inl rfl, .inl rfl⟩

theorem Visited.looped {info : ChannelInfo} {r : ChannelResult} {cycleId : String} {now : ℤ}
    {tally : Tally} {s t : CycleRun ω τ π} (hinfo : channels.find? row.channelId = some info)
    (h : Visited d row info r s t) (hlocal : Local row.channelId s t) :
    ∃ decision, (tally.add row info cycleId now r).decisions = tally.decisions ++ [decision] ∧
      Looped d channels [row] [decision] s t := by
  have hothers : ∀ id, id ≠ row.channelId →
      KeepsOrReads channels id (trackedCycleFee s id) (trackedCycleFee t id) ∧
        KeepsOrReads channels id (trackedFee s id) (trackedFee t id) := by
    intro id hne
    obtain ⟨hcycle, hfee⟩ := hlocal.tracked hne
    exact ⟨.inl (by rw [hcycle]), .inl (by rw [hfee])⟩
  have htouch : (tally.touch row.channelId).decisions = tally.decisions := by
    unfold Tally.touch
    split <;> rfl
  obtain ⟨outcome, governed⟩ := r
  cases outcome with
  | adjusted a =>
    obtain ⟨hid, hlimits⟩ := h.limits a rfl
    refine ⟨⟨a.channelId, a.peerId, a.oldFeePpm, a.newFeePpm, a.reason,
      a.reasonCode, true, governed,
      cycleId, now⟩, by simp only [Tally.add, htouch], ?_, ?_, ?_⟩
    · simpa [broadcasts, hid, ChannelResult.fee] using h.sent
    · intro b hb
      obtain rfl : b = (a.channelId, a.newFeePpm) := by simpa [broadcasts] using hb
      refine ⟨row, List.mem_singleton_self row, info, hid, hinfo, hlimits, ?_, ?_⟩
      · rw [hid]
        exact h.cycleFee
      · rw [hid]
        exact h.feeFee
    · intro id hne
      refine hothers id fun heq => hne ?_
      simp [broadcasts, hid, heq]
  | skipped reason =>
    refine ⟨⟨row.channelId, row.peerId, info.feeProportionalMillionths,
      info.feeProportionalMillionths, "skip: " ++
        reason.asStr, reason.code, false, governed, cycleId,
      now⟩, by simp only [Tally.add, htouch], ?_, ?_, ?_⟩
    · simpa [broadcasts, ChannelResult.fee] using h.sent
    · intro b hb
      simp [broadcasts] at hb
    · intro id _
      by_cases hid : id = row.channelId
      · subst hid
        have hreads : ∀ {x y : Option ℤ}, Books info.feeProportionalMillionths Option.none x y →
            KeepsOrReads channels row.channelId x y := by
          rintro x y (hk | hk)
          · exact .inl hk
          · exact .inr ⟨info, hinfo, hk⟩
        exact ⟨hreads h.cycleFee, hreads h.feeFee⟩
      · exact hothers id hid

theorem visitRow_loops (h : Recording d) (scope : CycleScope) (cycleId : String) (now : ℤ)
    {tally tally' : Tally} {s t : CycleRun ω τ π}
    (hrun : visitRow K d scope channels cycleId now row tally s = (.ok tally', t)) :
    ∃ decisions, tally'.decisions = tally.decisions ++ decisions ∧
      Looped d channels [row] decisions s t := by
  have hlocal := within_run (visitRow_local scope channels cycleId now row tally) hrun
  unfold visitRow at hrun
  split at hrun
  · cases hrun
    exact ⟨[], by simp, .none⟩
  · cases hfind : channels.find? row.channelId with
    | none =>
      rw [hfind] at hrun
      cases hrun
      exact ⟨[], by simp, .none⟩
    | some info =>
      rw [hfind] at hrun
      obtain ⟨r, u, hprocess, hrun⟩ := bind_ok hrun
      cases hrun
      have hvisited := returned (processChannel_acts h scope (find_key hfind) s) hprocess
      have hbooked : ∃ decision, (tally.add row info cycleId now r).decisions =
          tally.decisions ++ [decision] ∧ Looped d channels [row] [decision] s t :=
        hvisited.looped hfind hlocal
      obtain ⟨decision, hdecision, hlooped⟩ := hbooked
      exact ⟨[decision], hdecision, hlooped⟩

/-- Rows of distinct channels do not undo what the rows before them booked. -/
theorem Looped.append {xs ys : List FeeDecision} {s t u : CycleRun ω τ π}
    (h : Looped d channels [row] xs s t) (k : Looped d channels rows ys t u)
    (hrow : row.channelId ∉ rows.map ChannelStateRow.channelId)
    (hkept : ∀ id, id ∉ rows.map ChannelStateRow.channelId →
      trackedCycleFee u id = trackedCycleFee t id ∧ trackedFee u id = trackedFee t id)
    (hlocal : ∀ id, id ≠ row.channelId →
      trackedCycleFee t id = trackedCycleFee s id ∧ trackedFee t id = trackedFee s id) :
    Looped d channels (row :: rows) (xs ++ ys) s u := by
  refine ⟨?_, ?_, ?_⟩
  · rw [broadcasts_append]
    exact h.sent.trans k.sent
  · intro b hb
    rw [broadcasts_append, List.mem_append] at hb
    rcases hb with hb | hb
    · obtain ⟨r, hr, info, hid, hinfo, hlimits, hcycle, hfee⟩ := h.booked b hb
      obtain rfl := List.mem_singleton.mp hr
      rw [← hid] at hrow
      obtain ⟨hcycle', hfee'⟩ := hkept b.1 hrow
      exact ⟨r, List.mem_cons_self, info, hid, hinfo, hlimits, hcycle'.trans hcycle,
        hfee'.trans hfee⟩
    · obtain ⟨r, hr, hbooked⟩ := k.booked b hb
      exact ⟨r, List.mem_cons_of_mem _ hr, hbooked⟩
  · intro id hid
    rw [broadcasts_append, List.map_append, List.mem_append, not_or] at hid
    by_cases hne : id = row.channelId
    · subst hne
      obtain ⟨hcycle, hfee⟩ := hkept row.channelId hrow
      rw [hcycle, hfee]
      exact h.quiet row.channelId hid.1
    · obtain ⟨hcycle, hfee⟩ := hlocal id hne
      rw [← hcycle, ← hfee]
      exact k.quiet id hid.2

theorem visitRows_loops (h : Recording d) (scope : CycleScope) (cycleId : String) (now : ℤ)
    (rows : List ChannelStateRow) (hdistinct : (rows.map ChannelStateRow.channelId).Nodup)
    {tally tally' : Tally} {s t : CycleRun ω τ π}
    (hrun : visitRows K d scope channels cycleId now rows tally s = (.ok tally', t)) :
    ∃ decisions, tally'.decisions = tally.decisions ++ decisions ∧
      Looped d channels rows decisions s t := by
  induction rows generalizing tally s with
  | nil =>
    cases hrun
    exact ⟨[], by simp, .none⟩
  | cons row rows ih =>
    rw [List.map_cons, List.nodup_cons] at hdistinct
    obtain ⟨tally₁, s₁, hvisit, hrest⟩ := bind_ok hrun
    have hlocal := within_run (visitRow_local scope channels cycleId now row tally) hvisit
    obtain ⟨xs, hxs, hhead⟩ := visitRow_loops h scope cycleId now hvisit
    obtain ⟨ys, hys, htail⟩ := ih hdistinct.2 hrest
    refine ⟨xs ++ ys, by rw [hys, hxs, List.append_assoc], ?_⟩
    refine hhead.append htail hdistinct.1 (fun id hid => ?_) fun id hne => hlocal.tracked hne
    obtain ⟨hcycle, hfee⟩ := visitRows_untouched scope channels cycleId now rows hrest hid
    simp [trackedCycleFee, trackedFee, hcycle, hfee]

end Rows

section Cycle

structure Silent (s t : CycleRun ω τ π) : Prop where
  sent : World.Sent [] s.world t.world
  cycleFee : ∀ id, trackedCycleFee t id = trackedCycleFee s id
  fee : ∀ id, trackedFee t id = trackedFee s id

instance : IsPreorder (CycleRun ω τ π) Silent where
  refl _ := ⟨.refl _, fun _ => rfl, fun _ => rfl⟩
  trans _ _ _ h k := ⟨by simpa using h.sent.trans k.sent,
    fun id => (k.cycleFee id).trans (h.cycleFee id), fun id => (k.fee id).trans (h.fee id)⟩

theorem silent_asking (m : Ask ω α) : Within Silent (CycleRun.asking m : OnCycle ω τ π α) :=
  within_on fun _ _ => ⟨.of_eq rfl rfl, fun _ => rfl, fun _ => rfl⟩

theorem silent_read (f : CycleRun ω τ π → α) :
    Within Silent (Eff.read f : OnCycle ω τ π α) := within_read f

theorem silent_modify {f : CycleRun ω τ π → CycleRun ω τ π} (hactions : ∀ s, (f s).world = s.world)
    (hcycles : ∀ s, (f s).state.cycleStates = s.state.cycleStates)
    (hfees : ∀ s, (f s).state.feeStates = s.state.feeStates) :
    Within Silent (Eff.modify f : OnCycle ω τ π Unit) := by
  refine within_modify fun s => ⟨.of_eq (by rw [hactions]) (by rw [hactions]), ?_, ?_⟩
  · exact fun _ => by rw [trackedCycleFee, trackedCycleFee, hcycles]
  · exact fun _ => by rw [trackedFee, trackedFee, hfees]

theorem silent_stamp (label : String) : Within Silent (stamp d label : OnCycle ω τ π ℤ) := by
  apply within_bind (silent_asking _)
  intro t
  apply within_bind
  · exact within_modify fun _ => ⟨.of_eq rfl rfl, fun _ => rfl, fun _ => rfl⟩
  · exact fun _ => within_pure _

theorem wakeAll_tracked (profile : FeeProfileSettings) (now : ℤ) (s : ControllerState τ π)
    (id : String) :
    ((wakeAllSleepingChannels profile now s).1.cycleStates.get? id).map
        ChannelCycleState.lastBroadcastFeePpm =
      (s.cycleStates.get? id).map ChannelCycleState.lastBroadcastFeePpm ∧
    ((wakeAllSleepingChannels profile now s).1.feeStates.get? id).map
        ChannelFeeState.lastBroadcastFeePpm =
      (s.feeStates.get? id).map ChannelFeeState.lastBroadcastFeePpm := by
  simp only [wakeAllSleepingChannels, get_mapValues]
  constructor
  · cases s.cycleStates.get? id with
    | none => rfl
    | some c => cases hc : c.isSleeping <;> simp [ChannelCycleState.wakeBackdated, hc,
        ChannelCycleState.wakeUp]
  · cases s.feeStates.get? id with
    | none => rfl
    | some f => cases hf : f.isSleeping <;> simp [ChannelFeeState.wakeBackdated, hf,
        ChannelFeeState.wakeUp]

theorem silent_wake (profile : FeeProfileSettings) (now : ℤ) :
    Within Silent (Eff.modify fun s => { s with
      state := maybeWakeForVegasSpike profile now s.state } : OnCycle ω τ π Unit) := by
  apply within_modify
  intro s
  unfold maybeWakeForVegasSpike
  split
  · exact ⟨.of_eq rfl rfl, fun id => (wakeAll_tracked profile now _ id).1,
      fun id => (wakeAll_tracked profile now _ id).2⟩
  · split <;> exact ⟨.of_eq rfl rfl, fun _ => rfl, fun _ => rfl⟩

theorem silent_vegasUpdate (currentSatVb maSatVb : Float) (now : ℤ) :
    Within Silent (vegasUpdate d currentSatVb maSatVb now : OnCycle ω τ π Unit) := by
  apply within_bind
  · exact silent_modify (fun _ => rfl) (fun _ => rfl) fun _ => rfl
  intro _
  apply within_bind (silent_read _)
  intro vegas
  apply within_bind (silent_asking _)
  intro intensity
  exact silent_modify (fun _ => rfl) (fun _ => rfl) fun _ => rfl

theorem silent_vegasReflex (costs : Option ChainCosts) :
    Within Silent (vegasReflex K d costs : OnCycle ω τ π Unit) := by
  apply within_ite
  · intro _
    cases costs with
    | none => exact within_pure _
    | some c =>
      apply within_bind (silent_asking _)
      intro ma
      apply within_bind (silent_stamp _)
      intro vegasNow
      exact within_bind (silent_vegasUpdate _ _ _) fun _ => silent_wake _ _
  · exact fun _ => within_pure _

theorem silent_nodeDrainBias : Within Silent (nodeDrainBias K d : OnCycle ω τ π Float) := by
  apply within_bind (silent_asking _)
  intro ratio
  apply within_bind
  · exact silent_modify (fun _ => rfl) (fun _ => rfl) fun _ => rfl
  · exact fun _ => within_pure _

theorem silent_flush (dirty : List String) :
    Within Silent (flush K d dirty : OnCycle ω τ π Unit) := by
  unfold flush
  cases d.stateSink with
  | none => exact within_pure _
  | some sink => exact within_bind (silent_read _) fun _ => silent_asking _

theorem silent_summarize (t : Tally) :
    Within Silent (Eff.modify (summarize t) : OnCycle ω τ π Unit) := by
  have hkept (s : CycleRun ω τ π) : (summarize t s).world = s.world ∧
      (summarize t s).state.cycleStates = s.state.cycleStates ∧
        (summarize t s).state.feeStates = s.state.feeStates := by
    unfold summarize
    cases t.adjustments.getLast? with
    | some last => exact ⟨rfl, rfl, rfl⟩
    | none =>
      dsimp only
      split <;> exact ⟨rfl, rfl, rfl⟩
  exact silent_modify (fun s => (hkept s).1) (fun s => (hkept s).2.1) fun s => (hkept s).2.2

theorem silent_journal (decisions : List FeeDecision) :
    Within Silent (Eff.modify (journalDecisions d decisions) : OnCycle ω τ π Unit) := by
  have hkept (s : CycleRun ω τ π) : (journalDecisions d decisions s).world = s.world ∧
      (journalDecisions d decisions s).state = s.state := by
    unfold journalDecisions
    split <;> exact ⟨rfl, rfl⟩
  exact silent_modify (fun s => (hkept s).1) (fun s => by rw [(hkept s).2]) fun s => by
    rw [(hkept s).2]

/-- A whole cycle decided nothing, or decided over the rows and channels it was told of. -/
def Cycled (d : CycleDeps ω τ π) (decisions : List FeeDecision) (s t : CycleRun ω τ π) : Prop :=
  decisions = [] ∧ Silent s t ∨
    ∃ rows channels, Answered d.evidence.channelStates rows ∧
      Answered d.evidence.channelsInfo channels ∧ Looped d channels rows decisions s t

theorem Silent.looped {channels : ChannelsInfo} {rows : List ChannelStateRow}
    {decisions : List FeeDecision} {s t u v : CycleRun ω τ π} (h : Silent s t)
    (k : Looped d channels rows decisions t u) (l : Silent u v) :
    Looped d channels rows decisions s v := by
  refine ⟨by simpa using (h.sent.trans k.sent).trans l.sent, ?_, ?_⟩
  · intro b hb
    obtain ⟨row, hrow, info, hid, hinfo, hlimits, hcycle, hfee⟩ := k.booked b hb
    exact ⟨row, hrow, info, hid, hinfo, hlimits, (l.cycleFee _).trans hcycle,
      (l.fee _).trans hfee⟩
  · intro id hid
    rw [l.cycleFee, l.fee, ← h.cycleFee, ← h.fee]
    exact k.quiet id hid

theorem finishCycle_silent {tally : Tally} {decisions : List FeeDecision} {s t : CycleRun ω τ π}
    (h : finishCycle K d tally s = (.ok decisions, t)) :
    decisions = tally.decisions ∧ Silent s t := by
  obtain ⟨_, s₁, hflush, h⟩ := bind_ok h
  obtain ⟨_, s₂, hsummary, h⟩ := bind_ok h
  obtain ⟨_, s₃, hjournal, h⟩ := bind_ok h
  cases h
  refine ⟨rfl, ?_⟩
  have h₁ : Silent s s₁ := within_run (silent_flush _) hflush
  have h₂ : Silent s₁ s₂ := within_run (silent_summarize _) hsummary
  have h₃ : Silent s₂ t := within_run (silent_journal _) hjournal
  exact IsTrans.trans _ _ _ h₁ (IsTrans.trans _ _ _ h₂ h₃)

theorem visitChannels_loops (h : Recording d) {rows : List ChannelStateRow}
    (hdistinct : (rows.map ChannelStateRow.channelId).Nodup) {now : ℤ} {tally : Tally}
    {s t : CycleRun ω τ π} (hrun : visitChannels K d rows now s = (.ok tally, t)) :
    ∃ channels, Answered d.evidence.channelsInfo channels ∧
      Looped d channels rows tally.decisions s t := by
  obtain ⟨channels, s₁, hchannels, hrun⟩ := bind_ok hrun
  obtain ⟨costs, s₂, hcosts, hrun⟩ := bind_ok hrun
  obtain ⟨_, s₃, hvegas, hrun⟩ := bind_ok hrun
  obtain ⟨cap, s₄, hbias, hrun⟩ := bind_ok hrun
  have h₁ : Silent s s₁ := within_run (silent_asking _) hchannels
  have h₂ : Silent s₁ s₂ := within_run (silent_asking _) hcosts
  have h₃ : Silent s₂ s₃ := within_run (silent_vegasReflex costs) hvegas
  have h₄ : Silent s₃ s₄ := within_run silent_nodeDrainBias hbias
  have hbefore : Silent s s₄ :=
    IsTrans.trans _ _ _ h₁ (IsTrans.trans _ _ _ h₂ (IsTrans.trans _ _ _ h₃ h₄))
  obtain ⟨decisions, hdecisions, hlooped⟩ := visitRows_loops h _ _ now rows hdistinct hrun
  obtain rfl : tally.decisions = decisions := hdecisions
  exact ⟨channels, asked_ok hchannels, hbefore.looped hlooped (refl t)⟩

theorem runFeeCycle_cycles (h : Recording d)
    (hdistinct : ∀ rows, Answered d.evidence.channelStates rows →
      (rows.map ChannelStateRow.channelId).Nodup)
    {s t : CycleRun ω τ π} {decisions : List FeeDecision}
    (hrun : runFeeCycle K d s = (.ok decisions, t)) : Cycled d decisions s t := by
  have hidle {t : CycleRun ω τ π} (hs : Silent s t) : Cycled d [] s t := .inl ⟨rfl, hs⟩
  obtain ⟨now, s₁, hnow, hrun⟩ := bind_ok hrun
  obtain ⟨_, s₂, hclear, hrun⟩ := bind_ok hrun
  have h₁ : Silent s s₁ := within_run (silent_stamp _) hnow
  have hclears : Within Silent (Eff.modify clearDiagnostics : OnCycle ω τ π Unit) :=
    silent_modify (fun _ => rfl) (fun _ => rfl) fun _ => rfl
  have h₂ : Silent s s₂ := IsTrans.trans _ _ _ h₁ (within_run hclears hclear)
  have hsummary (action reason : String) (dominant : Option String) (block : Bool) :
      Within Silent (Eff.modify (setSummary action reason dominant block) : OnCycle ω τ π Unit) :=
    silent_modify (fun _ => rfl) (fun _ => rfl) fun _ => rfl
  split at hrun
  · obtain ⟨_, s₃, hset, hrun⟩ := bind_ok hrun
    cases hrun
    exact hidle (IsTrans.trans _ _ _ h₂ (within_run (hsummary _ _ _ _) hset))
  · obtain ⟨rows, s₃, hrows, hrun⟩ := bind_ok hrun
    have h₃ : Silent s s₃ := IsTrans.trans _ _ _ h₂ (within_run (silent_asking _) hrows)
    split at hrun
    · obtain ⟨_, s₄, hset, hrun⟩ := bind_ok hrun
      cases hrun
      exact hidle (IsTrans.trans _ _ _ h₃ (within_run (hsummary _ _ _ _) hset))
    · obtain ⟨tally, s₄, hloop, hrun⟩ := bind_ok hrun
      obtain ⟨rfl, hfinish⟩ := finishCycle_silent hrun
      obtain ⟨channels, hchannels, hlooped⟩ :=
        visitChannels_loops h (hdistinct rows (asked_ok hrows)) hloop
      exact .inr ⟨rows, channels, asked_ok hrows, hchannels, h₃.looped hlooped hfinish⟩

end Cycle

def Live (d : CycleDeps ω τ π) (row : ChannelStateRow) (info : ChannelInfo) : Prop :=
  (∃ rows, Answered d.evidence.channelStates rows ∧ row ∈ rows) ∧
    ∃ channels : ChannelsInfo, Answered d.evidence.channelsInfo channels ∧
      channels.find? row.channelId = some info

def StaysOrOnChain (d : CycleDeps ω τ π) (id : String) (before after : Option ℤ) : Prop :=
  after.getD 0 = before.getD 0 ∨ ∃ channels : ChannelsInfo, ∃ info,
    Answered d.evidence.channelsInfo channels ∧ channels.find? id = some info ∧
      after.getD 0 = info.feeProportionalMillionths

/-- What is recorded, what the governor authorized and what the decisions would broadcast are one
list of channels and fees. Each fee is within the limits and tracked by both states; where nothing
is recorded a tracked fee only ever becomes the fee on chain. -/
theorem recorded_actions_are_mirrored (h : Recording d)
    (hdistinct : ∀ rows, Answered d.evidence.channelStates rows →
      (rows.map ChannelStateRow.channelId).Nodup)
    {state : ControllerState τ π} {env : ω} {journaled decisions : List FeeDecision}
    {t : CycleRun ω τ π}
    (hrun : runFeeCycle K d ⟨state, .fresh env, journaled⟩ = (.ok decisions, t)) :
    t.world.recorded = broadcasts decisions ∧ t.world.approved = broadcasts decisions ∧
    (∀ b ∈ broadcasts decisions,
      (∃ row info, Live d row info ∧ b.1 = row.channelId ∧ WithinLimits d row info b.2) ∧
      trackedCycleFee t b.1 = some b.2 ∧ trackedFee t b.1 = some b.2) ∧
    ∀ id, id ∉ t.world.recorded.map Prod.fst →
      StaysOrOnChain d id (trackedCycleFee ⟨state, .fresh env, journaled⟩ id)
        (trackedCycleFee t id) ∧
      StaysOrOnChain d id (trackedFee ⟨state, .fresh env, journaled⟩ id) (trackedFee t id) := by
  rcases runFeeCycle_cycles h hdistinct hrun with
    ⟨rfl, hsilent⟩ | ⟨rows, channels, hrows, hchannels, hlooped⟩
  · have hsent := hsilent.sent
    refine ⟨by simpa [World.recorded, World.fresh, broadcasts] using hsent.recorded,
      by simpa [World.approved, World.fresh, broadcasts] using hsent.approved, ?_, ?_⟩
    · intro b hb
      simp [broadcasts] at hb
    · intro id _
      rw [hsilent.cycleFee, hsilent.fee]
      exact ⟨.inl rfl, .inl rfl⟩
  · have hrecorded : t.world.recorded = broadcasts decisions := by
      simpa [World.recorded, World.fresh] using hlooped.sent.recorded
    have happroved : t.world.approved = broadcasts decisions := by
      simpa [World.approved, World.fresh] using hlooped.sent.approved
    have hreads : ∀ {id : String} {x y : Option ℤ}, KeepsOrReads channels id x y →
        StaysOrOnChain d id x y := by
      rintro id x y (hk | ⟨info, hinfo, hk⟩)
      · exact .inl hk
      · exact .inr ⟨channels, info, hchannels, hinfo, hk⟩
    refine ⟨hrecorded, happroved, ?_, ?_⟩
    · intro b hb
      obtain ⟨row, hrow, info, hid, hinfo, hlimits, hcycle, hfee⟩ := hlooped.booked b hb
      exact ⟨⟨row, info, ⟨⟨rows, hrows, hrow⟩, ⟨channels, hchannels, hinfo⟩⟩, hid, hlimits⟩, hcycle,
        hfee⟩
    · intro id hid
      rw [hrecorded] at hid
      obtain ⟨hcycle, hfee⟩ := hlooped.quiet id hid
      exact ⟨hreads hcycle, hreads hfee⟩

section Samples

def governedPolicies : CycleDeps Unit Unit Unit :=
  { plainDeps (fun peer => always (some (staticPolicy (if peer = "a" then 500 else 700))))
      (always 1000) with
    cfg :=
      { FeeCfgSnapshot.default with enableVegasReflex := false, econGovernorFeesEnabled := true }
    authorizer := some fun q =>
      always ⟨decide (q.channelId = "1x1x1"), "governor", none⟩ }

theorem governedPolicies_recording : Recording governedPolicies :=
  ⟨rfl, rfl, rfl, by decide, by decide, by decide⟩

theorem governedPolicies_distinct (rows : List ChannelStateRow)
    (h : Answered governedPolicies.evidence.channelStates rows) :
    (rows.map ChannelStateRow.channelId).Nodup := by
  obtain ⟨w, hw⟩ := h
  obtain rfl : [plainRow "1x1x1" "a", plainRow "2x2x2" "b"] = rows := Except.ok.inj hw
  decide

theorem recorded_actions_are_mirrored_governed :
    ∃ decisions t, runFeeCycle plainKernel governedPolicies firstRun = (.ok decisions, t) ∧
      broadcasts decisions = [("1x1x1", 500)] ∧ t.world.recorded = [("1x1x1", 500)] ∧
      trackedFee t "1x1x1" = some 500 ∧
      StaysOrOnChain governedPolicies "2x2x2" none (trackedFee t "2x2x2") := by
  have hrun : ∃ decisions t,
      runFeeCycle plainKernel governedPolicies firstRun = (.ok decisions, t) ∧
        broadcasts decisions = [("1x1x1", 500)] := ⟨_, _, rfl, by decide⟩
  obtain ⟨decisions, t, hrun, hdecisions⟩ := hrun
  obtain ⟨hrecorded, -, hbooked, hquiet⟩ := recorded_actions_are_mirrored
    governedPolicies_recording governedPolicies_distinct hrun
  rw [hdecisions] at hrecorded
  refine ⟨decisions, t, hrun, hdecisions, hrecorded, ?_, (hquiet "2x2x2" ?_).2⟩
  · exact (hbooked ("1x1x1", 500) (by simp [hdecisions])).2.2
  · simp [hrecorded]

end Samples

end FeeCycle
