import RevenueOps.FeeCycleFrames
import RevenueOps.FeeRails

/-! The part of a channel's record that one decision leaves for the next: the pending target, the
last broadcast fee and the congestion episode. Nothing before the target moves it. -/
namespace FeeCycle

open FallibleState RustNumber

structure FeeMemory where
  pendingTargetPpm : ℤ
  lastBroadcastFeePpm : ℤ
  congestionActive : Bool
  congestionEntryFeePpm : ℤ

def ChannelCycleState.memory (c : ChannelCycleState) : FeeMemory :=
  ⟨c.pendingTargetPpm, c.lastBroadcastFeePpm, c.congestionActive, c.congestionEntryFeePpm⟩

variable {ω τ π α : Type} {K : Kernel τ π} {d : CycleDeps ω τ π}

section Frame

def Remembers (s t : ChannelRun ω τ π) : Prop := t.cycle.memory = s.cycle.memory

instance : IsPreorder (ChannelRun ω τ π) Remembers where
  refl _ := rfl
  trans _ _ _ h k := k.trans h

theorem remembers_asking (m : Ask ω α) : Within Remembers (asking m : OnChannel ω τ π α) :=
  within_on fun _ _ => rfl

theorem remembers_learning (m : Learn ω τ π α) :
    Within Remembers (Eff.on ChannelRun.learning m) := within_on fun _ _ => rfl

theorem remembers_modify {f : ChannelRun ω τ π → ChannelRun ω τ π}
    (h : ∀ s, (f s).cycle.memory = s.cycle.memory) :
    Within Remembers (Eff.modify f : OnChannel ω τ π Unit) := within_modify h

theorem sleepCheck_remembers (ctx : AdjustCtx) (isCongested : Bool) (now : ℤ) :
    Within Remembers (sleepCheck d ctx isCongested now) :=
  sleepCheck_within remembers_asking (fun _ => rfl) ctx isCongested now

theorem observe_remembers (ctx : AdjustCtx) (profile : FeeProfileSettings) (now : ℤ) :
    Within Remembers (observe d ctx profile now) :=
  observe_within remembers_asking (fun _ _ => rfl) ctx profile now

theorem recordRaw_remembers (sc : Scene) (congested : Bool) :
    Within Remembers (recordRaw K d sc congested) :=
  recordRaw_within remembers_asking (fun _ _ _ => rfl) sc congested

theorem recordWindow_remembers (sc : Scene) (rate : Float) :
    Within Remembers (recordWindow K d sc rate) :=
  recordWindow_within remembers_asking (fun _ _ _ => rfl) sc rate

end Frame

section Settle

variable {R : ChannelRun ω τ π → ChannelRun ω τ π → Prop} [IsPreorder (ChannelRun ω τ π) R]
  {hold : ChannelRun ω τ π → ChannelRun ω τ π}

/-- What a refresh keeps, when no answer from outside and no broadcast touches it. -/
theorem createGossipRefreshAdjustment_within (hworld : ∀ s w, R s { s with world := w })
    (hsync : ∀ fee now s, R s (syncRefresh fee now s)) (row : ChannelStateRow)
    (currentFeePpm now : ℤ) : Within R (createGossipRefreshAdjustment d row currentFeePpm now) := by
  have hask : ∀ {α : Type} (m : Ask ω α), Within R (asking m : OnChannel ω τ π α) :=
    fun m => within_on fun _ _ => hworld _ _
  unfold createGossipRefreshAdjustment
  split
  · exact within_pure _
  · apply within_bind (hask _)
    intro _
    have hsend : ∀ m : Broadcast ω Submitted,
        Within R (Eff.on ChannelRun.broadcast m : OnChannel ω τ π Submitted) :=
      fun m => within_on fun _ _ => hworld _ _
    apply within_bind (hsend _)
    intro sent
    apply within_ite
    · intro _
      apply within_bind (hask _)
      intro _
      apply within_bind (hask _)
      intro _
      exact within_bind (within_modify (hsync _ now)) fun _ => within_pure _
    · exact fun _ => within_pure _

theorem holdOrRefresh_within (hworld : ∀ s w, R s { s with world := w })
    (hsync : ∀ fee now s, R s (syncRefresh fee now s)) (hhold : ∀ s, R s (hold s))
    (row : ChannelStateRow) (currentFeePpm now : ℤ) :
    Within R (holdOrRefresh d row currentFeePpm now hold) := by
  have hask : ∀ {α : Type} (m : Ask ω α), Within R (asking m : OnChannel ω τ π α) :=
    fun m => within_on fun _ _ => hworld _ _
  apply within_bind (within_read (R := R) _)
  intro cycle
  apply within_bind (hask _)
  intro due
  apply within_bind
  · apply within_ite
    · exact fun _ => createGossipRefreshAdjustment_within hworld hsync row currentFeePpm now
    · exact fun _ => within_pure _
  intro refreshed
  apply within_ite
  · exact fun _ => within_pure _
  · exact fun _ => within_bind (within_modify hhold) fun _ => within_pure _

end Settle

section Open

variable {ctx : AdjustCtx} {vegas : VegasReflexState} {isCongested isUnderExploration : Bool}
  {now : ℤ} {s t u v : ChannelRun ω τ π} {sc : Scene} {target : Target} {result : AdjustResult}

/-- A channel that charges nothing starts from the smallest fee, unless it explores. -/
def startingFee (cfg : FeeCfgSnapshot) (ctx : AdjustCtx) (isUnderExploration : Bool) : ℤ :=
  let raw := ctx.info.feeProportionalMillionths
  if raw = 0 ∧ isUnderExploration = false then cfg.minFeePpm else raw

def Opens (K : Kernel τ π) (d : CycleDeps ω τ π) (ctx : AdjustCtx) (vegas : VegasReflexState)
    (isCongested isUnderExploration : Bool) (now : ℤ) (s : ChannelRun ω τ π) (sc : Scene)
    (t : ChannelRun ω τ π) : Prop :=
  ∃ woke s₁ obs s₂ r,
    sleepCheck d ctx isCongested now s = (.ok (some woke), s₁) ∧
    observe d ctx (feeProfile K d.cfg.feeProfile).2 now s₁ = (.ok (some obs), s₂) ∧
    asking (rails K d ctx vegas (startingFee d.cfg ctx isUnderExploration) now) s₂ = (.ok r, t) ∧
    sc = scene K d ctx isCongested isUnderExploration (startingFee d.cfg ctx isUnderExploration) now
      woke obs r s.cycle

theorem Opens.remembers (h : Opens K d ctx vegas isCongested isUnderExploration now s sc t) :
    Remembers s t := by
  obtain ⟨woke, s₁, obs, s₂, r, hslept, hobserved, hrails, -⟩ := h
  have h₁ := within_run (sleepCheck_remembers ctx isCongested now) hslept
  have h₂ := within_run (observe_remembers ctx _ now) hobserved
  have h₃ := within_run (remembers_asking _) hrails
  exact h₃.trans (h₂.trans h₁)

theorem Opens.adjusts (h : Opens K d ctx vegas isCongested isUnderExploration now s sc t)
    (hdecides : decideTarget K d sc t = (.ok (some target), u))
    (hsettles : settle K d sc target u = (.ok result, v)) :
    adjustChannel K d ctx vegas isCongested isUnderExploration now s = (.ok result, v) := by
  obtain ⟨woke, s₁, obs, s₂, r, hslept, hobserved, hrails, rfl⟩ := h
  have hread : (Eff.read ChannelRun.cycle : OnChannel ω τ π ChannelCycleState) s =
      (.ok s.cycle, s) := rfl
  unfold adjustChannel
  rw [bind_run hread, bind_run hslept]
  dsimp only
  rw [bind_run hobserved]
  dsimp only
  exact (bind_run hrails).trans ((bind_run hdecides).trans hsettles)

end Open

end FeeCycle
