import RevenueOps.FeeCycleLocality

/-! What a failed cycle leaves behind. Nothing of it reaches the journal or the decision summary,
but there is no rollback either: the channels visited before the failure keep what their visits
wrote, the failing channel keeps what it had written so far, and all others stay as they were. -/
namespace FeeCycle

open FallibleState KeyedTable

variable {ω τ π α β : Type} {K : Kernel τ π} {d : CycleDeps ω τ π}

def Answered (reply : Reply ω α) (a : α) : Prop := ∃ w, (reply w).1 = .ok a

theorem ask_ok {reply : Reply ω α} {w u : ω} {a : α} (h : ask reply w = (.ok a, u)) :
    Answered reply a := by
  refine ⟨w, ?_⟩
  obtain ⟨ha, -⟩ := Prod.ext_iff.mp h
  exact Outcome.ofExcept_eq_ok.mp ha

theorem on_ok {σ ρ ε : Type} {l : Part σ ρ} {m : Eff ρ ε α} {s t : σ} {a : α}
    (h : Eff.on l m s = (.ok a, t)) :
    ∃ u, m (l.get s) = (.ok a, u) ∧ t = l.put u s := by
  obtain ⟨ha, rfl⟩ := Prod.ext_iff.mp h
  exact ⟨_, Prod.ext ha rfl, rfl⟩

theorem asked_ok {reply : Reply ω α} {s t : CycleRun ω τ π} {a : α}
    (h : CycleRun.asking (ask reply) s = (.ok a, t)) : Answered reply a := by
  obtain ⟨u, hu, -⟩ := on_ok h
  exact ask_ok hu

section Before

structure Calm (s t : CycleRun ω τ π) : Prop extends Unreported s t where
  cycles : t.state.cycleStates = s.state.cycleStates
  fees : t.state.feeStates = s.state.feeStates

instance : IsPreorder (CycleRun ω τ π) Calm where
  refl _ := ⟨⟨rfl, rfl⟩, rfl, rfl⟩
  trans _ _ _ h k := ⟨⟨k.journaled.trans h.journaled, k.summary.trans h.summary⟩,
    k.cycles.trans h.cycles, k.fees.trans h.fees⟩

theorem Calm.trans {s t u : CycleRun ω τ π} (h : Calm s t) (k : Calm t u) : Calm s u :=
  IsTrans.trans _ _ _ h k

theorem calm_asking (m : Ask ω α) : Within Calm (CycleRun.asking m : OnCycle ω τ π α) :=
  within_on fun _ _ => ⟨⟨rfl, rfl⟩, rfl, rfl⟩

theorem calm_modify {f : CycleRun ω τ π → CycleRun ω τ π} (h : ∀ s, Calm s (f s)) :
    Within Calm (Eff.modify f : OnCycle ω τ π Unit) := within_modify h

theorem calm_stamp (label : String) : Within Calm (stamp d label : OnCycle ω τ π ℤ) := by
  apply within_bind (calm_asking _)
  intro t
  apply within_bind
  · exact calm_modify fun _ => ⟨⟨rfl, rfl⟩, rfl, rfl⟩
  · exact fun _ => within_pure _

theorem calm_vegasUpdate (currentSatVb maSatVb : Float) (now : ℤ) :
    Within Calm (vegasUpdate d currentSatVb maSatVb now : OnCycle ω τ π Unit) := by
  apply within_bind
  · exact calm_modify fun _ => ⟨⟨rfl, rfl⟩, rfl, rfl⟩
  intro _
  have hread : Within Calm (Eff.read fun s => s.state.vegas : OnCycle ω τ π VegasReflexState) :=
    within_read _
  apply within_bind hread
  intro vegas
  apply within_bind (calm_asking _)
  intro intensity
  exact calm_modify fun _ => ⟨⟨rfl, rfl⟩, rfl, rfl⟩

theorem calm_nodeDrainBias : Within Calm (nodeDrainBias K d : OnCycle ω τ π Float) := by
  apply within_bind (calm_asking _)
  intro ratio
  apply within_bind
  · exact calm_modify fun _ => ⟨⟨rfl, rfl⟩, rfl, rfl⟩
  · exact fun _ => within_pure _

def Woken (profile : FeeProfileSettings) (s t : CycleRun ω τ π) : Prop :=
  Unreported s t ∧
    ((t.state.cycleStates = s.state.cycleStates ∧ t.state.feeStates = s.state.feeStates) ∨
      ∃ now, t.state.cycleStates = (wakeAllSleepingChannels profile now s.state).1.cycleStates ∧
        t.state.feeStates = (wakeAllSleepingChannels profile now s.state).1.feeStates)

variable {profile : FeeProfileSettings}

theorem Calm.woken {s t : CycleRun ω τ π} (h : Calm s t) : Woken profile s t :=
  ⟨h.toUnreported, Or.inl ⟨h.cycles, h.fees⟩⟩

theorem Calm.andWoken {s t u : CycleRun ω τ π} (h : Calm s t) (k : Woken profile t u) :
    Woken profile s u := by
  obtain ⟨hquiet, hentries⟩ := k
  refine ⟨IsTrans.trans _ _ _ h.toUnreported hquiet, ?_⟩
  simp only [wakeAllSleepingChannels, h.cycles, h.fees] at hentries ⊢
  exact hentries

theorem Woken.andCalm {s t u : CycleRun ω τ π} (h : Woken profile s t) (k : Calm t u) :
    Woken profile s u := by
  obtain ⟨hquiet, hentries⟩ := h
  refine ⟨IsTrans.trans _ _ _ hquiet k.toUnreported, ?_⟩
  rw [k.cycles, k.fees]
  exact hentries

theorem maybeWake_woken (now : ℤ) (s : CycleRun ω τ π) :
    Woken profile s { s with state := maybeWakeForVegasSpike profile now s.state } := by
  unfold maybeWakeForVegasSpike
  split
  · exact ⟨⟨rfl, rfl⟩, Or.inr ⟨now, rfl, rfl⟩⟩
  · split
    · exact ⟨⟨rfl, rfl⟩, Or.inl ⟨rfl, rfl⟩⟩
    · exact ⟨⟨rfl, rfl⟩, Or.inl ⟨rfl, rfl⟩⟩

theorem maybeWake_within (now : ℤ) :
    Within (Woken profile) (Eff.modify fun s => { s with
      state := maybeWakeForVegasSpike profile now s.state } : OnCycle ω τ π Unit) :=
  within_modify fun s => maybeWake_woken now s

theorem woken_seq {m : OnCycle ω τ π α} {f : α → OnCycle ω τ π β} (hm : Within Calm m)
    (hf : ∀ a, Within (Woken profile) (f a)) : Within (Woken profile) (m >>= f) :=
  within_seq hm hf (fun _ _ h => h.woken) fun _ _ _ h k => h.andWoken k

/-- The Vegas reflex wakes the channels at most once, as the last thing it does. -/
theorem vegasReflex_woken (costs : Option ChainCosts) :
    Within (Woken (feeProfile K d.cfg.feeProfile).2)
      (vegasReflex K d costs : OnCycle ω τ π Unit) := by
  have hidle : Within (Woken (feeProfile K d.cfg.feeProfile).2)
      (pure () : OnCycle ω τ π Unit) := fun s => (refl s : Calm s s).woken
  apply within_ite
  · intro _
    cases costs with
    | none => exact hidle
    | some c =>
      apply woken_seq (calm_asking _)
      intro ma
      apply woken_seq (calm_stamp _)
      intro vegasNow
      exact woken_seq (calm_vegasUpdate _ _ _) fun _ => maybeWake_within vegasNow
  · exact fun _ => hidle

end Before

section Failure

/-- Some rows were visited to their end; then a visit failed in the next one, or, with no row
left, the flush did. Every other channel is as the base has it. -/
def StoppedAt (K : Kernel τ π) (d : CycleDeps ω τ π) (base t : CycleRun ω τ π) : Prop :=
  ∃ rows channels scope cycleId now done rest tally finished,
    Answered d.evidence.channelStates rows ∧ Answered d.evidence.channelsInfo channels ∧
    rows = done ++ rest ∧
    visitRows K d scope channels cycleId now done .empty base = (.ok tally, finished) ∧
    (match rest with
      | [] => Calm finished t
      | row :: _ => Local row.channelId finished t) ∧
    ∀ j, j ∉ (done ++ rest.take 1).map ChannelStateRow.channelId →
      t.state.cycleStates.get? j = base.state.cycleStates.get? j ∧
        t.state.feeStates.get? j = base.state.feeStates.get? j

theorem calm_flush (dirty : List String) : Within Calm (flush K d dirty : OnCycle ω τ π Unit) := by
  unfold flush
  cases d.stateSink with
  | none => exact within_pure _
  | some sink =>
    have hrows : Within Calm (Eff.read fun s => dirtyRows K s.state dirty :
        OnCycle ω τ π (List (String × ChannelCycleState × ChannelFeeState τ π))) := within_read _
    exact within_bind hrows fun _ => calm_asking _

theorem finishCycle_err {tally : Tally} {s t : CycleRun ω τ π} {e : DecisionInputError}
    (h : finishCycle K d tally s = (.err e, t)) : Calm s t := by
  rcases bind_err h with hflush | ⟨_, _, _, h⟩
  · exact within_run (calm_flush tally.dirty) hflush
  · rcases bind_err h with h | ⟨_, _, _, h⟩
    · cases h
    · rcases bind_err h with h | ⟨_, _, _, h⟩
      · cases h
      · cases h

theorem untouched_of_prefix {scope : CycleScope} {channels : ChannelsInfo} {cycleId : String}
    {now : ℤ} {done : List ChannelStateRow} {tally : Tally} {base finished t : CycleRun ω τ π}
    {j : String} (failing : List String)
    (hdone : visitRows K d scope channels cycleId now done .empty base = (.ok tally, finished))
    (hlast : j ∉ failing → t.state.cycleStates.get? j = finished.state.cycleStates.get? j ∧
      t.state.feeStates.get? j = finished.state.feeStates.get? j)
    (hj : j ∉ done.map ChannelStateRow.channelId ++ failing) :
    t.state.cycleStates.get? j = base.state.cycleStates.get? j ∧
      t.state.feeStates.get? j = base.state.feeStates.get? j := by
  rw [List.mem_append, not_or] at hj
  have hvisited := visitRows_untouched scope channels cycleId now done hdone hj.1
  have hrest := hlast hj.2
  exact ⟨hrest.1.trans hvisited.1, hrest.2.trans hvisited.2⟩

theorem visitRows_stopped {rows : List ChannelStateRow} {channels : ChannelsInfo}
    {scope : CycleScope}
    {cycleId : String} {now : ℤ} {base t : CycleRun ω τ π} {e : DecisionInputError}
    (hrows : Answered d.evidence.channelStates rows)
    (hchannels : Answered d.evidence.channelsInfo channels)
    (h : visitRows K d scope channels cycleId now rows .empty base = (.err e, t)) :
    Unreported base t ∧ StoppedAt K d base t := by
  refine ⟨within_run (visitRows_unreported scope channels cycleId now rows .empty) h, ?_⟩
  obtain ⟨done, row, rest, tally, finished, hsplit, hdone, hlocal⟩ :=
    visitRows_err scope channels cycleId now rows h
  refine ⟨rows, channels, scope, cycleId, now, done, row :: rest, tally, finished, hrows, hchannels,
    hsplit, hdone, hlocal, ?_⟩
  intro j hj
  apply untouched_of_prefix [row.channelId] hdone
  · intro hne
    rw [List.mem_singleton] at hne
    exact ⟨hlocal.cycles j hne, hlocal.fees j hne⟩
  · simpa using hj

/-- What a failed cycle leaves: at most one wake of all channels, and then the finished visits. -/
def Abandoned (K : Kernel τ π) (d : CycleDeps ω τ π) (s t : CycleRun ω τ π) : Prop :=
  Unreported s t ∧ ∃ base, Woken (feeProfile K d.cfg.feeProfile).2 s base ∧
    (Calm base t ∨ StoppedAt K d base t)

theorem Woken.abandoned {s t : CycleRun ω τ π} (h : Woken (feeProfile K d.cfg.feeProfile).2 s t) :
    Abandoned K d s t := ⟨h.1, t, h, Or.inl (refl t)⟩

theorem Calm.andAbandoned {s t u : CycleRun ω τ π} (h : Calm s t) (k : Abandoned K d t u) :
    Abandoned K d s u := by
  obtain ⟨hquiet, base, hbase, hstop⟩ := k
  exact ⟨IsTrans.trans _ _ _ h.toUnreported hquiet, base, h.andWoken hbase, hstop⟩

/-- The run up to the channel loop: calm reads, and the Vegas reflex between them. -/
theorem visitChannels_err {rows : List ChannelStateRow} {now : ℤ} {s t : CycleRun ω τ π}
    {e : DecisionInputError} (hrows : Answered d.evidence.channelStates rows)
    (h : visitChannels K d rows now s = (.err e, t)) : Abandoned K d s t := by
  rcases bind_err h with hfail | ⟨channels, s₁, hchannels, h⟩
  · have hcalm := within_run (calm_asking _) hfail
    exact hcalm.woken.abandoned
  have h₁ := within_run (calm_asking _) hchannels
  rcases bind_err h with hfail | ⟨costs, s₂, hcosts, h⟩
  · have hcalm := within_run (calm_asking _) hfail
    exact (h₁.trans hcalm).woken.abandoned
  have h₂ := within_run (calm_asking _) hcosts
  rcases bind_err h with hfail | ⟨_, s₃, hvegas, h⟩
  · have hwoken := within_run (vegasReflex_woken costs) hfail
    exact ((h₁.trans h₂).andWoken hwoken).abandoned
  have h₃ := within_run (vegasReflex_woken costs) hvegas
  have hwoken := (h₁.trans h₂).andWoken h₃
  rcases bind_err h with hfail | ⟨cap, s₄, hbias, h⟩
  · have hcalm := within_run calm_nodeDrainBias hfail
    exact (hwoken.andCalm hcalm).abandoned
  have h₄ := within_run calm_nodeDrainBias hbias
  have hbase := hwoken.andCalm h₄
  obtain ⟨hquiet, hstop⟩ := visitRows_stopped hrows (asked_ok hchannels) h
  exact ⟨IsTrans.trans _ _ _ hbase.1 hquiet, s₄, hbase, Or.inr hstop⟩

theorem visitChannels_flush_err {rows : List ChannelStateRow} {now : ℤ} {s u t : CycleRun ω τ π}
    {tally : Tally} {e : DecisionInputError} (hrows : Answered d.evidence.channelStates rows)
    (hloop : visitChannels K d rows now s = (.ok tally, u))
    (h : finishCycle K d tally u = (.err e, t)) : Abandoned K d s t := by
  obtain ⟨channels, s₁, hchannels, hloop⟩ := bind_ok hloop
  obtain ⟨costs, s₂, hcosts, hloop⟩ := bind_ok hloop
  obtain ⟨_, s₃, hvegas, hloop⟩ := bind_ok hloop
  obtain ⟨cap, s₄, hbias, hloop⟩ := bind_ok hloop
  have h₁ := within_run (calm_asking _) hchannels
  have h₂ := within_run (calm_asking _) hcosts
  have h₃ := within_run (vegasReflex_woken costs) hvegas
  have h₄ := within_run calm_nodeDrainBias hbias
  have hbase := ((h₁.trans h₂).andWoken h₃).andCalm h₄
  have hflush := finishCycle_err h
  have hquiet := within_run (visitRows_unreported _ channels _ now rows .empty) hloop
  refine ⟨IsTrans.trans _ _ _ hbase.1 (IsTrans.trans _ _ _ hquiet hflush.toUnreported), s₄, hbase,
    Or.inr ⟨rows, channels, _, _, now, rows, [], tally, u, hrows,
      asked_ok hchannels, by simp, hloop,
      hflush, ?_⟩⟩
  intro j hj
  apply untouched_of_prefix [] hloop
  · intro _
    rw [hflush.cycles, hflush.fees]
    exact ⟨rfl, rfl⟩
  · simpa using hj

end Failure

/-- A cycle that fails returns no decisions, and neither the journal nor the decision summary
hears of it. It is not rolled back: after at most one wake of all channels, the rows in front of
the failure have been visited as in a cycle that goes on, and beyond them only the two entries of
the failing channel may have moved. -/
theorem failed_cycle_keeps_finished_visits {s t : CycleRun ω τ π} {e : DecisionInputError}
    (h : runFeeCycle K d s = (.err e, t)) : Abandoned K d s t := by
  rcases bind_err h with hfail | ⟨now, s₁, hnow, h⟩
  · have hcalm := within_run (calm_stamp _) hfail
    exact hcalm.woken.abandoned
  have h₁ := within_run (calm_stamp _) hnow
  obtain hfail | ⟨_, s₂, hclear, h⟩ := bind_err h
  · cases hfail
  have h₂ : Calm s₁ s₂ := by
    cases hclear
    exact ⟨⟨rfl, rfl⟩, rfl, rfl⟩
  have hstart : Calm s s₂ := h₁.trans h₂
  split at h
  · obtain hfail | ⟨_, _, _, hfail⟩ := bind_err h
    · cases hfail
    · cases hfail
  · rcases bind_err h with hfail | ⟨rows, s₃, hrows, h⟩
    · have hcalm := within_run (calm_asking _) hfail
      exact (hstart.trans hcalm).woken.abandoned
    have h₃ := within_run (calm_asking _) hrows
    split at h
    · obtain hfail | ⟨_, _, _, hfail⟩ := bind_err h
      · cases hfail
      · cases hfail
    · rcases bind_err h with hloop | ⟨tally, u, hloop, hflush⟩
      · exact (hstart.trans h₃).andAbandoned (visitChannels_err (asked_ok hrows) hloop)
      · exact (hstart.trans h₃).andAbandoned
          (visitChannels_flush_err (asked_ok hrows) hloop hflush)

section Samples

/-- Arithmetic that never moves a fee: the posterior and the PID terms carry nothing. -/
def plainKernel : Kernel Unit Unit where
  defaultThompson := ()
  defaultPid := ()
  toLowercase := id
  fixed := fun _ _ => ""
  pyPow := fun _ _ => 0.0
  detectCongestion := fun _ _ _ _ _ => false
  calculateFloor := fun _ _ _ _ => 0
  rebalanceCostFloor := fun _ _ _ _ => none
  flowAdjustedCeiling := fun _ ceiling _ _ => ceiling
  blendFeeTarget := fun current _ _ _ _ _ _ => (current, 0.0)
  applyDampedFeeTarget := fun current _ _ _ => (current, "", current)
  explorationFeeTarget := fun current _ _ _ _ => current
  kalmanDemandFactor := fun _ => 1.0
  explorationStdThreshold := fun _ => 0.0
  zeroFlowStreakThresholds := fun _ _ => (0, 0)
  applyZeroFlowRatchetGuard := fun i => (i.targetFee, none)
  drainFeeMultiplier := fun _ _ _ _ => 1.0
  computeNodeReceivableRatio := fun _ => 0.0
  nodeDrainPressure := fun _ _ _ => 0.0
  effectiveDrainDiscountMax := fun discount _ _ _ => discount
  neighborFeeMedian := fun _ _ _ _ => none
  neighborFeePercentile := fun _ _ _ _ _ => none
  competitiveUndercutPct := fun _ _ _ _ => 0.0
  computeHtlcmaxMsat := fun _ _ _ _ => none
  deltaExceedsDeadband := fun _ _ => false
  calculateMultiplier := fun pid _ _ _ _ => (1.0, pid)
  posteriorMean := fun _ => 0.0
  posteriorStd := fun _ => 0.0
  observationCount := fun _ => 0
  posteriorBiasIsEmpty := fun _ => true
  zeroRevenueStreak := fun _ => 0
  meaningfulGapEmaHours := fun _ => 0.0
  contextCount := fun _ _ => none
  updatePosteriorAtTimes := fun t _ _ _ _ _ _ _ _ => t
  updateContextual := fun t _ _ _ _ _ => t
  applyDtsDiscount := fun t _ => t
  applyVegasAdjustment := fun t _ _ _ => t
  recordPosteriorNudge := fun t _ _ _ => t
  supportedFeeCeiling := fun _ _ _ => none
  maybeUpwardProbeCap := fun _ _ _ => none
  consumeUpwardProbe := fun t _ => t
  earningRegionFee := fun _ _ => none
  isMeaningfulRate := fun _ _ _ => false

def always {α : Type} (a : α) : Reply ω α := fun w => (.ok a, w)

def plainRow (channelId peerId : String) : ChannelStateRow :=
  ⟨channelId, peerId, "balanced", none, none, none⟩

def plainInfo (channelId : String) : ChannelInfo :=
  ⟨channelId, 1000000, 500000000, 0, 100, 990000000, "local", false, 483, 0⟩

def plainEvidence (policy : String → Reply ω (Option PeerPolicies.PeerPolicy)) : FeeEvidence ω where
  ourNodeId := always "us"
  channelStates := always [plainRow "1x1x1" "a", plainRow "2x2x2" "b"]
  channelsInfo := always ⟨[plainInfo "1x1x1", plainInfo "2x2x2"], by decide⟩
  chainCosts := always none
  volumeSince := fun _ _ => always 0
  forwardCountSince := fun _ _ => always 0
  explorationFlag := fun _ => always false
  clearExplorationFlag := fun _ => always ()
  gossipChannels := fun _ => always []
  capturedNeighborFeeMedian := fun _ => always none
  capturedNeighborFeePercentile := fun _ _ => always none
  peerLatency := fun _ => always none
  channelCostHistory := fun _ _ => always []
  peerFeeHistory := fun _ => always none
  lastForwardTime := fun _ => always none
  flowWindow := fun _ => always none
  policy := policy
  marginalRoiPercent := fun _ => always none
  temporaryOverlayActive := fun _ => always false
  mempoolMa24h := always 1.0
  nodeChannels := always []

def plainDeps (policy : String → Reply ω (Option PeerPolicies.PeerPolicy)) (clock : Reply ω ℤ) :
    CycleDeps ω Unit Unit where
  evidence := plainEvidence policy
  cfg := { FeeCfgSnapshot.default with enableVegasReflex := false }
  random := fun _ => always 0.0
  sampleFeeContextual := fun t _ floor _ w => (.ok floor, t, w)
  clock := fun _ => clock
  authorizer := none
  executor := .recording
  hasJournal := true
  stateSink := none
  minCompetitors := 1

def staticPolicy (target : ℤ) : PeerPolicies.PeerPolicy :=
  { PeerPolicies.PeerPolicy.defaultFor "a" with strategy := .static, feePpmTarget := some target }

/-- The first peer has a static fee, and the policy of the second cannot be read. -/
def brokenPolicies : CycleDeps Unit Unit Unit :=
  plainDeps (fun peer => if peer = "a" then always (some (staticPolicy 500))
    else fun w => (.error "policy store", w)) (always 1000)

def firstRun : CycleRun Unit Unit Unit := ⟨.new, .fresh (), []⟩

theorem brokenPolicies_run :
    (runFeeCycle plainKernel brokenPolicies firstRun).1 = .err "policy store" := rfl

theorem failed_cycle_keeps_finished_visits_broken :
    Abandoned plainKernel brokenPolicies firstRun
      (runFeeCycle plainKernel brokenPolicies firstRun).2 :=
  failed_cycle_keeps_finished_visits (Prod.ext brokenPolicies_run rfl)

def bookedFee (channelId : String) (s : ControllerState Unit Unit) : Option ℤ :=
  (s.cycleStates.get? channelId).map ChannelCycleState.lastBroadcastFeePpm

/-- The fee of the first channel stays booked as broadcast. -/
theorem failed_cycle_leaves_trace :
    ¬ ∀ (d : CycleDeps Unit Unit Unit) (s t : CycleRun Unit Unit Unit) (e : DecisionInputError),
      runFeeCycle plainKernel d s = (.err e, t) → t.state = s.state := by
  intro h
  have hstate := h brokenPolicies firstRun _ _ (Prod.ext brokenPolicies_run rfl)
  have hkept := congrArg (bookedFee "1x1x1") hstate
  have hbooked : bookedFee "1x1x1" (runFeeCycle plainKernel brokenPolicies firstRun).2.state =
      some 500 := by decide
  exact absurd (hbooked.symm.trans hkept) (by decide)

end Samples

end FeeCycle
