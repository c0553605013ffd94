import RevenueOps.FeeCycleFrames

/-! What a visit of one channel can reach. Whether it returns or fails, a visit changes nothing of
the controller but the two entries of its channel; the journal is written at the end of a cycle
and nowhere else. -/
namespace FeeCycle

open FallibleState KeyedTable

variable {ω τ π α β : Type} {K : Kernel τ π} {d : CycleDeps ω τ π}

structure Local (channelId : String) (s t : CycleRun ω τ π) : Prop where
  cycles : ∀ j, j ≠ channelId → t.state.cycleStates.get? j = s.state.cycleStates.get? j
  fees : ∀ j, j ≠ channelId → t.state.feeStates.get? j = s.state.feeStates.get? j
  rest : t.state =
    { s.state with cycleStates := t.state.cycleStates, feeStates := t.state.feeStates }
  journaled : t.journaled = s.journaled

variable {id : String}

theorem Local.refl (s : CycleRun ω τ π) : Local id s s := ⟨fun _ _ => rfl, fun _ _ => rfl, rfl, rfl⟩

theorem Local.trans {s t u : CycleRun ω τ π} (h : Local id s t) (k : Local id t u) :
    Local id s u where
  cycles j hj := (k.cycles j hj).trans (h.cycles j hj)
  fees j hj := (k.fees j hj).trans (h.fees j hj)
  rest := by rw [k.rest, h.rest]
  journaled := k.journaled.trans h.journaled

instance : IsPreorder (CycleRun ω τ π) (Local id) where
  refl := Local.refl
  trans _ _ _ h k := h.trans k

theorem Local.summary {s t : CycleRun ω τ π} (h : Local id s t) :
    t.state.lastDecisionSummary = s.state.lastDecisionSummary := by rw [h.rest]

section Visit

theorem local_asking (m : Ask ω α) : Within (Local id) (CycleRun.asking m : OnCycle ω τ π α) :=
  within_on fun _ _ => ⟨fun _ _ => rfl, fun _ _ => rfl, rfl, rfl⟩

theorem local_broadcast (m : Broadcast ω α) :
    Within (Local id) (Eff.on CycleRun.broadcast m : OnCycle ω τ π α) :=
  within_on fun _ _ => ⟨fun _ _ => rfl, fun _ _ => rfl, rfl, rfl⟩

theorem local_read (f : CycleRun ω τ π → α) :
    Within (Local id) (Eff.read f : OnCycle ω τ π α) := within_read f

theorem local_stamp (label : String) : Within (Local id) (stamp d label : OnCycle ω τ π ℤ) := by
  apply within_bind (local_asking _)
  intro t
  apply within_bind
  · exact within_modify fun _ => ⟨fun _ _ => rfl, fun _ _ => rfl, rfl, rfl⟩
  · exact fun _ => within_pure _

theorem local_ensureCycleState (fee : ℤ) :
    Within (Local id) (Eff.modify (ensureCycleState id fee) : OnCycle ω τ π Unit) :=
  within_modify fun _ =>
    ⟨fun _ hj => Dict.get_insert_ne hj.symm, fun _ _ => rfl, rfl, rfl⟩

theorem local_ensureFeeState (fee : ℤ) :
    Within (Local id) (Eff.modify (ensureFeeState K id fee) : OnCycle ω τ π Unit) :=
  within_modify fun _ =>
    ⟨fun _ _ => rfl, fun _ hj => Dict.get_insert_ne hj.symm, rfl, rfl⟩

/-- Whatever is done with the channel's two states stays with them. -/
theorem local_channel (m : OnChannel ω τ π α) :
    Within (Local id) (Eff.on (CycleRun.channel K id) m) :=
  within_on fun _ _ =>
    ⟨fun _ hj => Dict.get_insert_ne hj.symm, fun _ hj => Dict.get_insert_ne hj.symm, rfl, rfl⟩

theorem adjustChannelFee_local (ctx : AdjustCtx) (evaluatedAt : ℤ) :
    Within (Local ctx.row.channelId) (adjustChannelFee K d ctx evaluatedAt) := by
  apply within_bind (local_asking _)
  intro isUnderExploration
  apply within_bind (local_stamp _)
  intro now
  apply within_bind (local_ensureCycleState _)
  intro _
  apply within_bind (local_ensureFeeState _)
  intro _
  apply within_bind (local_read _)
  intro vegas
  exact local_channel _

theorem staticPolicyBranch_local (info : ChannelInfo) (peerId : String) (target : ℤ) :
    Within (Local info.channelId) (staticPolicyBranch K d info peerId target) := by
  apply within_ite
  · exact fun _ => within_pure _
  · intro _
    apply within_bind (local_broadcast _)
    intro sent
    apply within_ite
    · intro _
      apply within_bind (local_stamp _)
      intro _
      apply within_bind (local_stamp _)
      intro now
      apply within_bind (local_ensureCycleState _)
      intro _
      apply within_bind (local_ensureFeeState _)
      intro _
      exact within_bind (local_channel _) fun _ => within_pure _
    · exact fun _ => within_pure _

theorem dynamicBranch_local (scope : CycleScope) (row : ChannelStateRow) (info : ChannelInfo)
    (policy : Option PeerPolicies.PeerPolicy) :
    Within (Local row.channelId) (dynamicBranch K d scope row info policy) := by
  apply within_bind (local_stamp _)
  intro now
  apply within_bind (local_ensureCycleState _)
  intro _
  apply within_bind (local_read _)
  intro pre
  apply within_bind (local_read _)
  intro epoch
  apply within_bind (local_asking _)
  intro hint
  have hadjust : ∀ ctx : AdjustCtx, ctx.row = row →
      Within (Local row.channelId) (adjustChannelFee K d ctx now) := by
    rintro ctx rfl
    exact adjustChannelFee_local ctx now
  apply within_bind (hadjust _ rfl)
  intro adjusted
  cases adjusted.adjustment with
  | some a => exact within_pure _
  | none => exact within_bind (local_read _) fun _ => within_pure _

theorem processChannel_local (scope : CycleScope) (row : ChannelStateRow) {info : ChannelInfo}
    (hkey : info.channelId = row.channelId) :
    Within (Local row.channelId) (processChannel K d scope row info) := by
  have hstatic (target : ℤ) : Within (Local row.channelId)
      (staticPolicyBranch K d info row.peerId target) :=
    hkey ▸ staticPolicyBranch_local info row.peerId target
  apply within_bind (local_asking _)
  intro overlay
  apply within_ite
  · exact fun _ => within_pure _
  · intro _
    apply within_bind (local_asking _)
    intro policy
    cases policy with
    | none => exact dynamicBranch_local scope row info none
    | some p =>
      dsimp only
      split
      · exact within_pure _
      · exact hstatic _
      · exact dynamicBranch_local scope row info (some p)

theorem visitRow_local (scope : CycleScope) (channels : ChannelsInfo) (cycleId : String) (now : ℤ)
    (row : ChannelStateRow) (t : Tally) :
    Within (Local row.channelId) (visitRow K d scope channels cycleId now row t) := by
  apply within_ite
  · exact fun _ => within_pure _
  · intro _
    cases hfind : channels.find? row.channelId with
    | none => exact within_pure _
    | some info =>
      exact within_bind (processChannel_local scope row (find_key hfind)) fun _ => within_pure _

end Visit

section Rows

theorem visitRows_err (scope : CycleScope) (channels : ChannelsInfo) (cycleId : String) (now : ℤ)
    (rows : List ChannelStateRow) {tally : Tally} {s t : CycleRun ω τ π} {e : DecisionInputError}
    (h : visitRows K d scope channels cycleId now rows tally s = (.err e, t)) :
    ∃ done row rest tally' s₁, rows = done ++ row :: rest ∧
      visitRows K d scope channels cycleId now done tally s = (.ok tally', s₁) ∧
      Local row.channelId s₁ t := by
  induction rows generalizing tally s with
  | nil => cases h
  | cons row rows ih =>
    rcases bind_err h with hrow | ⟨tally₁, s₁, hrow, hrows⟩
    · have hlocal := within_run (visitRow_local scope channels cycleId now row tally) hrow
      exact ⟨[], row, rows, tally, s, rfl, rfl, hlocal⟩
    · obtain ⟨done, failing, rest, tally', s₂, rfl, hdone, hlocal⟩ := ih hrows
      refine ⟨row :: done, failing, rest, tally', s₂, rfl, ?_, hlocal⟩
      exact (bind_run hrow).trans hdone

theorem visitRows_untouched (scope : CycleScope) (channels : ChannelsInfo) (cycleId : String)
    (now : ℤ) (rows : List ChannelStateRow) {tally tally' : Tally} {s t : CycleRun ω τ π}
    (h : visitRows K d scope channels cycleId now rows tally s = (.ok tally', t)) {j : String}
    (hj : j ∉ rows.map ChannelStateRow.channelId) :
    t.state.cycleStates.get? j = s.state.cycleStates.get? j ∧
      t.state.feeStates.get? j = s.state.feeStates.get? j := by
  induction rows generalizing tally s with
  | nil =>
    cases h
    exact ⟨rfl, rfl⟩
  | cons row rows ih =>
    rw [List.map_cons, List.mem_cons, not_or] at hj
    obtain ⟨hne, hrest⟩ := hj
    obtain ⟨tally₁, s₁, hrow, hrows⟩ := bind_ok h
    have hlocal := within_run (visitRow_local scope channels cycleId now row tally) hrow
    have htail := ih hrows hrest
    exact ⟨htail.1.trans (hlocal.cycles j hne), htail.2.trans (hlocal.fees j hne)⟩

/-- Neither the journal nor the decision summary has heard of it. -/
structure Unreported (s t : CycleRun ω τ π) : Prop where
  journaled : t.journaled = s.journaled
  summary : t.state.lastDecisionSummary = s.state.lastDecisionSummary

instance : IsPreorder (CycleRun ω τ π) Unreported where
  refl _ := ⟨rfl, rfl⟩
  trans _ _ _ h k := ⟨k.journaled.trans h.journaled, k.summary.trans h.summary⟩

theorem Local.unreported {s t : CycleRun ω τ π} (h : Local id s t) : Unreported s t :=
  ⟨h.journaled, h.summary⟩

theorem visitRows_unreported (scope : CycleScope) (channels : ChannelsInfo) (cycleId : String)
    (now : ℤ) (rows : List ChannelStateRow) (tally : Tally) :
    Within Unreported (visitRows K d scope channels cycleId now rows tally) := by
  induction rows generalizing tally with
  | nil => exact within_pure _
  | cons row rows ih =>
    apply within_bind
    · exact (visitRow_local scope channels cycleId now row tally).mono fun _ _ h => h.unreported
    · exact fun tally' => ih tally'

end Rows

end FeeCycle
