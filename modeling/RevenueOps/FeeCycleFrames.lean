import RevenueOps.FeeCycle
import Mathlib.Data.List.Nodup

/-! What the stages before a fee change leave alone. Until the two deadbands an adjustment moves
neither a tracked broadcast fee nor the recorder nor the governor's record, and it adds at most
its own window to what went into a posterior. -/
namespace FeeCycle

open FallibleState KeyedTable RustNumber RustFloat

variable {ω τ π α β : Type} {K : Kernel τ π} {d : CycleDeps ω τ π}

/-- The tracked fees, the timer and the world after a stretch that recorded these windows. -/
structure Moved (added : List Window) (timer : ℤ) (s t : ChannelRun ω τ π) : Prop where
  cycleFee : t.cycle.lastBroadcastFeePpm = s.cycle.lastBroadcastFeePpm
  feeFee : t.fee.lastBroadcastFeePpm = s.fee.lastBroadcastFeePpm
  timer : t.cycle.lastUpdate = timer
  actions : t.world.actions = s.world.actions
  asked : t.world.asked = s.world.asked
  readings : t.world.readings = s.world.readings
  windows : t.world.windows = s.world.windows ++ added

abbrev Steady (added : List Window) (s t : ChannelRun ω τ π) : Prop :=
  Moved added s.cycle.lastUpdate s t

section Compose

variable {s t u : ChannelRun ω τ π} {added more : List Window} {timer : ℤ}

theorem Steady.andThen (h : Steady added s t) (k : Moved more timer t u) :
    Moved (added ++ more) timer s u where
  cycleFee := k.cycleFee.trans h.cycleFee
  feeFee := k.feeFee.trans h.feeFee
  timer := k.timer
  actions := k.actions.trans h.actions
  asked := k.asked.trans h.asked
  readings := k.readings.trans h.readings
  windows := by rw [k.windows, h.windows, List.append_assoc]

theorem Steady.trans (h : Steady added s t) (k : Steady more t u) : Steady (added ++ more) s u := by
  have hk := h.andThen k
  rwa [h.timer] at hk

theorem Steady.refl (s : ChannelRun ω τ π) : Steady [] s s :=
  ⟨rfl, rfl, rfl, rfl, rfl, rfl, by simp⟩

instance : IsPreorder (ChannelRun ω τ π) (Steady []) where
  refl := Steady.refl
  trans _ _ _ h k := h.trans k

theorem returns_after {m : OnChannel ω τ π α} {k : α → OnChannel ω τ π β}
    {f : β → ChannelRun ω τ π → Prop} (hm : Within (Steady []) m)
    (hk : ∀ a t, Steady [] s t → wp (k a) (Post.returns f) t) : wp (m >>= k) (Post.returns f) s :=
  returns_bind (returns_of_within hm s) hk

end Compose

section Primitive

theorem steady_asking (m : Ask ω α) : Within (Steady []) (asking m : OnChannel ω τ π α) :=
  within_on fun _ _ => ⟨rfl, rfl, rfl, rfl, rfl, rfl, by simp [ChannelRun.outside]⟩

theorem steady_learning (m : Learn ω τ π α) : Within (Steady []) (Eff.on ChannelRun.learning m) :=
  within_on fun _ _ => ⟨rfl, rfl, rfl, rfl, rfl, rfl, by simp [ChannelRun.learning]⟩

theorem steady_read (f : ChannelRun ω τ π → α) :
    Within (Steady []) (Eff.read f : OnChannel ω τ π α) := within_read f

theorem steady_modify {f : ChannelRun ω τ π → ChannelRun ω τ π}
    (hcycle : ∀ s, (f s).cycle.lastBroadcastFeePpm = s.cycle.lastBroadcastFeePpm)
    (hfee : ∀ s, (f s).fee.lastBroadcastFeePpm = s.fee.lastBroadcastFeePpm)
    (htimer : ∀ s, (f s).cycle.lastUpdate = s.cycle.lastUpdate)
    (hworld : ∀ s, (f s).world = s.world) :
    Within (Steady []) (Eff.modify f : OnChannel ω τ π Unit) :=
  within_modify fun s =>
    ⟨hcycle s, hfee s, htimer s, by rw [hworld], by rw [hworld], by rw [hworld], by simp [hworld]⟩

end Primitive

section Frames

variable {R : ChannelRun ω τ π → ChannelRun ω τ π → Prop} [IsPreorder (ChannelRun ω τ π) R]
  (hask : ∀ {α : Type} (m : Ask ω α), Within R (asking m : OnChannel ω τ π α))

include hask

theorem sleepCheck_within (hwake : ∀ s, R s (wakeBoth s)) (ctx : AdjustCtx) (isCongested : Bool)
    (now : ℤ) : Within R (sleepCheck d ctx isCongested now) := by
  have hwoken : Within R (Eff.modify wakeBoth : OnChannel ω τ π Unit) := within_modify hwake
  apply within_bind (within_read (R := R) _)
  intro ts
  apply within_ite
  · intro _
    cases ctx.forceRepriceReason with
    | some reason => exact within_bind hwoken fun _ => within_pure _
    | none =>
      apply within_ite
      · exact fun _ => within_bind hwoken fun _ => within_pure _
      · intro _
        apply within_bind (hask _)
        intro volume
        apply within_ite
        · exact fun _ => within_bind hwoken fun _ => within_pure _
        · exact fun _ => within_pure _
  · exact fun _ => within_pure _

theorem observe_within
    (hcount : ∀ s n, R s { s with cycle := { s.cycle with forwardCountSinceUpdate := n } })
    (ctx : AdjustCtx) (profile : FeeProfileSettings) (now : ℤ) :
    Within R (observe d ctx profile now) := by
  apply within_bind (hask _)
  intro volume
  apply within_bind (hask _)
  intro forwards
  exact within_bind (within_modify fun s => hcount s forwards) fun _ => within_pure _

theorem updatePosterior_within
    (hlearn : ∀ s thompson windows, R s { s with
      fee := { s.fee with thompson := thompson }, world := { s.world with windows := windows } })
    (sc : Scene) (rate : Float) (congested : Bool) :
    Within R (updatePosterior K d sc rate congested) := by
  apply within_bind (hask _)
  intro updateNow
  apply within_bind (hask _)
  intro recomputeNow
  apply within_bind (within_read (R := R) _)
  intro thompson
  apply within_bind (hask _)
  intro biasNow
  exact within_modify fun s => hlearn s _ _

theorem recordRaw_within
    (hlearn : ∀ s thompson windows, R s { s with
      fee := { s.fee with thompson := thompson }, world := { s.world with windows := windows } })
    (sc : Scene) (congested : Bool) : Within R (recordRaw K d sc congested) := by
  apply within_ite
  · exact fun _ => updatePosterior_within hask hlearn sc _ _
  · exact fun _ => within_pure _

theorem recordWindow_within
    (hlearn : ∀ s thompson windows, R s { s with
      fee := { s.fee with thompson := thompson }, world := { s.world with windows := windows } })
    (sc : Scene) (rate : Float) : Within R (recordWindow K d sc rate) := by
  apply within_ite
  · intro _
    apply within_bind (updatePosterior_within hask hlearn sc _ _)
    intro _
    apply within_bind (hask _)
    intro contextualNow
    exact within_modify fun s => hlearn s _ s.world.windows
  · exact fun _ => within_pure _

end Frames

section Window

theorem sleepCheck_steady (ctx : AdjustCtx) (isCongested : Bool) (now : ℤ) :
    Within (Steady []) (sleepCheck d ctx isCongested now) :=
  sleepCheck_within steady_asking (fun _ => ⟨rfl, rfl, rfl, rfl, rfl, rfl, by simp [wakeBoth]⟩)
    ctx isCongested now

theorem observe_steady (ctx : AdjustCtx) (profile : FeeProfileSettings) (now : ℤ) :
    Within (Steady []) (observe d ctx profile now) :=
  observe_within steady_asking (fun _ _ => ⟨rfl, rfl, rfl, rfl, rfl, rfl, by simp⟩) ctx profile now

end Window

section Record

def AtMostOnce (w : Window) (added : List Window) : Prop := added = [] ∨ added = [w]

theorem updatePosterior_records (sc : Scene) (rate : Float) (congested : Bool)
    (s : ChannelRun ω τ π) :
    wp (updatePosterior K d sc rate congested)
      (Post.returns fun _ t => Steady [sc.window] s t) s := by
  apply returns_after (steady_asking _)
  intro updateNow t₁ h₁
  apply returns_after (steady_asking _)
  intro recomputeNow t₂ h₂
  apply returns_after (steady_read _)
  intro thompson t₃ h₃
  apply returns_after (steady_asking _)
  intro biasNow t₄ h₄
  apply returns_modify
  have hquiet : Steady [] s t₄ := ((h₁.trans h₂).trans h₃).trans h₄
  exact hquiet.trans ⟨rfl, rfl, rfl, rfl, rfl, rfl, rfl⟩

theorem recordRaw_records (sc : Scene) (congested : Bool) (s : ChannelRun ω τ π) :
    wp (recordRaw K d sc congested)
      (Post.returns fun _ t => ∃ added, AtMostOnce sc.window added ∧ Steady added s t) s := by
  apply returns_ite
  · intro _
    apply returns_mono (updatePosterior_records sc _ congested s)
    exact fun _ t h => ⟨_, Or.inr rfl, h⟩
  · intro _
    exact returns_pure ⟨[], Or.inl rfl, Steady.refl s⟩

theorem recordWindow_records (sc : Scene) (rate : Float) (s : ChannelRun ω τ π) :
    wp (recordWindow K d sc rate)
      (Post.returns fun _ t => ∃ added, AtMostOnce sc.window added ∧ Steady added s t) s := by
  apply returns_ite
  · intro _
    apply returns_bind (updatePosterior_records sc rate _ s)
    intro _ t h
    apply returns_after (steady_asking _)
    intro contextualNow t₁ h₁
    apply returns_modify
    refine ⟨[sc.window], Or.inr rfl, ?_⟩
    have hasked : Steady [sc.window] s t₁ := by simpa using h.trans h₁
    have hlast (thompson : τ) :
        Steady [] t₁ { t₁ with fee := { t₁.fee with thompson := thompson } } :=
      ⟨rfl, rfl, rfl, rfl, rfl, rfl, by simp⟩
    simpa using hasked.trans (hlast _)
  · intro _
    exact returns_pure ⟨[], Or.inl rfl, Steady.refl s⟩

end Record

section Target

/-- What a target decision leaves: a target with the timer as it was, or a channel asleep whose
timer restarted. -/
def Decided (sc : Scene) (s : ChannelRun ω τ π) (r : Option Target) (t : ChannelRun ω τ π) : Prop :=
  ∃ added, AtMostOnce sc.window added ∧
    Moved added (if r.isSome then s.cycle.lastUpdate else sc.now) s t

theorem congestionTarget_steady (sc : Scene) (s : ChannelRun ω τ π) :
    wp (congestionTarget K d sc) (Post.returns fun _ t =>
      ∃ added, AtMostOnce sc.window added ∧ Steady added s t) s := by
  have hquiet : Within (Steady [])
      (Eff.modify fun s => { s with cycle := { s.cycle with congestionQuietCycles := 0 } } :
        OnChannel ω τ π Unit) :=
    steady_modify (fun _ => rfl) (fun _ => rfl) (fun _ => rfl) fun _ => rfl
  have henter : Within (Steady [])
      (Eff.modify fun s => { s with cycle := enterCongestion sc.currentFeePpm s.cycle } :
        OnChannel ω τ π Unit) :=
    steady_modify (fun _ => rfl) (fun _ => rfl) (fun _ => rfl) fun _ => rfl
  apply returns_after hquiet
  intro _ t₁ h₁
  apply returns_bind (recordRaw_records sc _ t₁)
  rintro _ t₂ ⟨added, honce, h₂⟩
  apply returns_after (steady_read _)
  intro firstTrip t₃ h₃
  apply returns_after henter
  intro _ t₄ h₄
  apply returns_after (steady_read _)
  intro entry t₅ h₅
  apply returns_after (steady_read _)
  intro std t₆ h₆
  apply returns_pure
  have hall := ((((h₁.trans h₂).trans h₃).trans h₄).trans h₅).trans h₆
  exact ⟨added, honce, by simpa using hall⟩

theorem explorationTarget_steady (sc : Scene) (s : ChannelRun ω τ π) :
    wp (explorationTarget K d sc) (Post.returns fun _ t =>
      ∃ added, AtMostOnce sc.window added ∧ Steady added s t) s := by
  apply returns_bind (recordRaw_records sc _ s)
  rintro _ t ⟨added, honce, h⟩
  apply returns_ite
  · intro _
    apply returns_after (steady_asking _)
    intro _ u hu
    exact returns_pure ⟨added, honce, by simpa using h.trans hu⟩
  · intro _
    apply returns_after (steady_read _)
    intro cycle u hu
    exact returns_pure ⟨added, honce, by simpa using h.trans hu⟩

theorem discount_steady (sc : Scene) (sparse : Bool) :
    Within (Steady []) (discount K sc sparse : OnChannel ω τ π Unit) := by
  apply steady_modify
  · exact fun _ => by dsimp only; split <;> rfl
  · exact fun _ => by dsimp only; split <;> rfl
  · exact fun _ => by dsimp only; split <;> rfl
  · exact fun _ => by dsimp only; split <;> rfl

theorem blendAnchor_kept (sc : Scene) (bounded : ℤ) (c : ChannelCycleState) :
    (blendAnchor sc bounded c).2.lastBroadcastFeePpm = c.lastBroadcastFeePpm ∧
      (blendAnchor sc bounded c).2.lastUpdate = c.lastUpdate := by
  unfold blendAnchor
  dsimp only
  split
  · split
    · exact ⟨rfl, rfl⟩
    · exact ⟨rfl, rfl⟩
  · exact ⟨rfl, rfl⟩

theorem settleSample_steady (sc : Scene) (sig : Signal) (dtsFee : ℤ) (p : Priced) :
    Within (Steady []) (settleSample K d sc sig dtsFee p) := by
  apply within_bind
  · intro s
    have hkept := blendAnchor_kept sc (max sc.rails.floorPpm (min sc.rails.ceilingPpm
      p.supported.postPid)) s.cycle
    exact ⟨hkept.1, rfl, hkept.2, rfl, rfl, rfl, by simp⟩
  intro anchor
  apply within_bind (steady_read _)
  intro thompson
  apply within_bind (steady_asking _)
  intro guarded
  apply within_bind
  · exact steady_modify (fun _ => rfl) (fun _ => rfl) (fun _ => rfl) fun _ => rfl
  · exact fun _ => within_pure _

theorem sampleTarget_steady (sc : Scene) (sig : Signal) :
    Within (Steady []) (sampleTarget K d sc sig) := by
  apply within_bind (discount_steady sc sig.sparse)
  intro _
  apply within_bind (steady_learning _)
  intro sampled
  apply within_bind
  · exact steady_modify (fun _ => rfl) (fun _ => rfl) (fun _ => rfl) fun _ => rfl
  intro _
  apply within_bind (steady_learning _)
  intro priced
  exact settleSample_steady sc sig sampled.dtsFee priced

theorem dtsTarget_decides (sc : Scene) (s : ChannelRun ω τ π) :
    wp (dtsTarget K d sc) (Post.returns (Decided sc s)) s := by
  apply returns_after (steady_read _)
  intro ts t₁ h₁
  have hstable : Within (Steady []) (Eff.modify fun s => { s with fee := { s.fee with
      stableCycles := (stability sc (signal K sc ts) ts).1 } } : OnChannel ω τ π Unit) :=
    steady_modify (fun _ => rfl) (fun _ => rfl) (fun _ => rfl) fun _ => rfl
  apply returns_after hstable
  intro _ t₂ h₂
  apply returns_bind (recordWindow_records sc _ t₂)
  rintro _ t₃ ⟨added, honce, h₃⟩
  have hrecorded : Steady added s t₃ := by simpa using (h₁.trans h₂).trans h₃
  apply returns_ite
  · intro _
    apply returns_modify_bind
    apply returns_pure
    refine ⟨added, honce, ?_⟩
    have hslept : Moved [] sc.now t₃ (enterSleep d.cfg sc t₃) :=
      ⟨rfl, rfl, rfl, rfl, rfl, rfl, by simp [enterSleep]⟩
    simpa using hrecorded.andThen hslept
  · intro _
    apply returns_after (sampleTarget_steady sc _)
    intro target t₄ h₄
    exact returns_pure ⟨added, honce, by simpa using hrecorded.trans h₄⟩

theorem decideTarget_decides (sc : Scene) (s : ChannelRun ω τ π) :
    wp (decideTarget K d sc) (Post.returns (Decided sc s)) s := by
  apply returns_ite
  · intro _
    apply returns_bind (congestionTarget_steady sc s)
    intro target t h
    exact returns_pure h
  · intro _
    have hquiet : Within (Steady []) (Eff.modify fun s => { s with cycle := countQuiet s.cycle } :
        OnChannel ω τ π Unit) := by
      apply steady_modify
      · exact fun _ => by dsimp only [countQuiet]; split_ifs <;> rfl
      · exact fun _ => rfl
      · exact fun _ => by dsimp only [countQuiet]; split_ifs <;> rfl
      · exact fun _ => rfl
    apply returns_after hquiet
    intro _ t₁ h₁
    apply returns_ite
    · intro _
      apply returns_bind (explorationTarget_steady sc t₁)
      rintro target t₂ ⟨added, honce, h₂⟩
      exact returns_pure ⟨added, honce, by simpa using h₁.trans h₂⟩
    · intro _
      apply returns_mono (dtsTarget_decides sc t₁)
      rintro r t₂ ⟨added, honce, h₂⟩
      refine ⟨added, honce, ?_⟩
      rw [h₁.timer] at h₂
      simpa using h₁.andThen h₂

end Target

end FeeCycle
