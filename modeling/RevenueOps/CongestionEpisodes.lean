import RevenueOps.PendingTargets

/-! Congestion episodes. The first cycle of an episode remembers the fee that it starts from, and
however often the later ones raise the fee, a multiple of the remembered fee holds
for all of them. -/
namespace FeeCycle

open Binary64 FallibleState RustNumber

section Frame

variable {ω τ π : Type} {K : Kernel τ π} {d : CycleDeps ω τ π} {sc : Scene} {t : Target}

def SameEpisode (s t : ChannelRun ω τ π) : Prop :=
  t.cycle.congestionActive = s.cycle.congestionActive ∧
    t.cycle.congestionEntryFeePpm = s.cycle.congestionEntryFeePpm

instance : IsPreorder (ChannelRun ω τ π) SameEpisode where
  refl _ := ⟨rfl, rfl⟩
  trans _ _ _ h k := ⟨k.1.trans h.1, k.2.trans h.2⟩

theorem Remembers.sameEpisode {s t : ChannelRun ω τ π} (h : Remembers s t) : SameEpisode s t :=
  ⟨congrArg FeeMemory.congestionActive h, congrArg FeeMemory.congestionEntryFeePpm h⟩

theorem episode_asking {α : Type} (m : Ask ω α) :
    Within SameEpisode (asking m : OnChannel ω τ π α) := within_on fun _ _ => ⟨rfl, rfl⟩

theorem holdOrRefresh_episode {hold : ChannelRun ω τ π → ChannelRun ω τ π}
    (hhold : ∀ s, SameEpisode s (hold s)) (row : ChannelStateRow) (currentFeePpm now : ℤ) :
    Within SameEpisode (holdOrRefresh d row currentFeePpm now hold) :=
  holdOrRefresh_within (fun _ _ => ⟨rfl, rfl⟩) (fun _ _ _ => ⟨rfl, rfl⟩) hhold row currentFeePpm now

theorem broadcastChange_episode : Within SameEpisode (broadcastChange K d sc t) := by
  apply within_bind
  · exact within_read _
  intro thompson
  apply within_bind
  · exact within_on fun _ _ => ⟨rfl, rfl⟩
  intro sent
  apply within_ite
  · intro _
    apply within_bind (episode_asking _)
    intro _
    apply within_bind
    · apply within_ite
      · intro _
        apply within_bind (episode_asking _)
        exact fun _ => within_modify fun _ => ⟨rfl, rfl⟩
      · exact fun _ => within_pure _
    intro _
    apply within_bind
    · exact within_modify fun _ => ⟨rfl, rfl⟩
    · exact fun _ => within_pure _
  · intro _
    apply within_bind
    · exact within_modify fun _ => ⟨rfl, rfl⟩
    · exact fun _ => within_pure _

theorem settle_episode : Within SameEpisode (settle K d sc t) := by
  have hrestart : ∀ s : ChannelRun ω τ π, SameEpisode s (restartTimer sc s) := fun _ => ⟨rfl, rfl⟩
  have hsuppress : ∀ s : ChannelRun ω τ π, SameEpisode s (suppressGossip sc t s) :=
    fun _ => ⟨rfl, rfl⟩
  apply within_bind
  · exact within_read _
  intro cycle
  apply within_ite
  · intro _
    apply within_bind
    · exact within_modify fun _ => ⟨rfl, rfl⟩
    · exact fun _ => holdOrRefresh_episode hrestart _ _ _
  intro _
  apply within_ite
  · intro _
    apply within_bind
    · exact within_modify fun _ => ⟨rfl, rfl⟩
    · exact fun _ => holdOrRefresh_episode hsuppress _ _ _
  intro _
  apply within_ite
  · intro _
    apply within_bind
    · exact within_modify fun _ => ⟨rfl, rfl⟩
    · exact fun _ => within_pure _
  · exact fun _ => broadcastChange_episode

end Frame

section Decision

variable {ω τ π : Type} {K : Kernel τ π} {d : CycleDeps ω τ π} {sc : Scene}

def entryAfter (c : ChannelCycleState) (currentFeePpm : ℤ) : ℤ :=
  (enterCongestion currentFeePpm c).congestionEntryFeePpm

/-- A trip decides by the congestion cap and leaves the channel in its episode. -/
def Trips (K : Kernel τ π) (sc : Scene) (s : ChannelRun ω τ π) (t : Target)
    (u : ChannelRun ω τ π) : Prop :=
  (∃ std, t = congestionMove K sc std (!s.cycle.congestionActive)
      (congestionCap sc (entryAfter s.cycle sc.currentFeePpm))) ∧
    u.cycle.congestionActive = true ∧
    u.cycle.congestionEntryFeePpm = entryAfter s.cycle sc.currentFeePpm

theorem entryAfter_congr {b c : ChannelCycleState}
    (hactive : b.congestionActive = c.congestionActive)
    (hentry : b.congestionEntryFeePpm = c.congestionEntryFeePpm) (currentFeePpm : ℤ) :
    entryAfter b currentFeePpm = entryAfter c currentFeePpm := by
  rw [entryAfter, entryAfter, enterCongestion, enterCongestion]
  dsimp only
  rw [hactive, hentry]

theorem congestionTarget_trips (s : ChannelRun ω τ π) :
    wp (congestionTarget K d sc) (Post.returns fun t u => Trips K sc s t u) s := by
  apply returns_modify_bind
  apply returns_bind (returns_of_within (recordRaw_remembers _ _) _)
  intro _ s₁ h₁
  obtain ⟨hactive, hentry⟩ : SameEpisode s s₁ := h₁.sameEpisode
  apply returns_read_bind
  apply returns_modify_bind
  apply returns_read_bind
  apply returns_read_bind
  apply returns_pure
  rw [Trips, ← entryAfter_congr hactive hentry, ← hactive]
  exact ⟨⟨_, rfl⟩, rfl, rfl⟩

theorem decideTarget_trips (hcongested : sc.isCongested = true) (s : ChannelRun ω τ π) :
    wp (decideTarget K d sc) (Post.returns fun r u => ∀ t ∈ r, Trips K sc s t u) s := by
  apply returns_ite
  · intro _
    apply returns_bind (congestionTarget_trips s)
    intro t u h
    apply returns_pure
    simpa using h
  · intro h
    exact absurd hcongested h

/-- The cap is the smaller of the ceiling and a multiple of the entry fee, or the current fee. -/
theorem congestionCap_bounds (sc : Scene) (entry : ℤ) :
    sc.currentFeePpm ≤ congestionCap sc entry ∧
      congestionCap sc entry ≤ max sc.currentFeePpm
        (min sc.rails.ceilingPpm (max (asI64 (asF64 entry * 4.0)) (entry + 250))) := by
  rw [congestionCap]
  omega

/-- A follow-up cycle moves to the cap, or to the floor that it raises itself. -/
def congestionBound (sc : Scene) (cap : ℤ) : ℤ :=
  let floor := max sc.rails.floorPpm (min (asI64 (asF64 sc.currentFeePpm * 1.5)) cap)
  max floor (min (if sc.rails.ceilingPpm ≤ floor then floor + 10 else sc.rails.ceilingPpm) cap)

theorem congestionBound_bounds (sc : Scene) (cap : ℤ) :
    sc.rails.floorPpm ≤ congestionBound sc cap ∧
      congestionBound sc cap ≤ max sc.rails.floorPpm cap := by
  rw [congestionBound]
  omega

theorem congestionMove_followUp (std : Float) (cap : ℤ) :
    (congestionMove K.withRails sc std false cap).newFeePpm =
      (applyDampedFeeTarget sc.currentFeePpm
        (blendFeeTarget sc.currentFeePpm (congestionBound sc cap)
        sc.wokeFromSleep false std sc.profileName sc.profile).1 sc.wokeFromSleep sc.profile).1 :=
  rfl

theorem congestionMove_le {std : Float} {cap : ℤ} {first : Bool} {name : String}
    (hname : sc.profileName = (feeProfile K.withRails name).1)
    (hprofile : sc.profile = (feeProfile K.withRails name).2)
    (hcurrent : InI64 sc.currentFeePpm) (hfloor : InI64 sc.rails.floorPpm) (hcap : InI64 cap)
    (hle : sc.currentFeePpm ≤ cap) :
    (congestionMove K.withRails sc std first cap).newFeePpm ≤ max sc.rails.floorPpm cap := by
  cases first with
  | true =>
    change max sc.rails.floorPpm (min sc.rails.ceilingPpm cap) ≤ _
    omega
  | false =>
    obtain ⟨hlow, hhigh⟩ := congestionBound_bounds sc cap
    have hbounded : InI64 (congestionBound sc cap) := by
      obtain ⟨hfloor, hfloor'⟩ := hfloor
      obtain ⟨-, hcap⟩ := hcap
      exact ⟨by omega, by omega⟩
    obtain ⟨hway, -⟩ := blendFeeTarget_between (K := K.withRails) Set.left_mem_uIcc hcurrent
      hbounded sc.wokeFromSleep false std name
    rw [← hname, ← hprofile, Set.mem_uIcc] at hway
    have hmoves := feeProfile_moves K.withRails name
    rw [← hprofile] at hmoves
    rw [congestionMove_followUp]
    refine (applyDampedFeeTarget_between hmoves).2.trans ?_
    omega

end Decision

section Cycles

variable {ω τ π : Type} {K : Kernel τ π}

structure CongestedCycle (ω : Type) (K : Kernel τ π) where
  deps : CycleDeps ω τ π
  ctx : AdjustCtx
  vegas : VegasReflexState
  exploring : Bool
  now : ℤ
  before : ChannelRun ω τ π
  scene : Scene
  opened : ChannelRun ω τ π
  target : Target
  decided : ChannelRun ω τ π
  result : AdjustResult
  after : ChannelRun ω τ π
  opens : Opens K.withRails deps ctx vegas true exploring now before scene opened
  decides : decideTarget K.withRails deps scene opened = (.ok (some target), decided)
  settles : settle K.withRails deps scene target decided = (.ok result, after)
  inI64 : InI64 scene.currentFeePpm ∧ InI64 scene.rails.floorPpm ∧ InI64 scene.rails.ceilingPpm

namespace CongestedCycle

variable (x : CongestedCycle ω K)

theorem adjusts : adjustChannel K.withRails x.deps x.ctx x.vegas true x.exploring x.now x.before =
    (.ok x.result, x.after) := x.opens.adjusts x.decides x.settles

def chainFee : ℤ := x.ctx.info.feeProportionalMillionths

def entry : ℤ := entryAfter x.before.cycle x.scene.currentFeePpm

theorem trips : (∃ std, x.target = congestionMove K.withRails x.scene std
      (!x.before.cycle.congestionActive) (congestionCap x.scene x.entry)) ∧
    x.after.cycle.congestionActive = true ∧ x.after.cycle.congestionEntryFeePpm = x.entry := by
  have hcongested : x.scene.isCongested = true := by
    obtain ⟨woke, s₁, obs, s₂, r, -, -, -, hscene⟩ := x.opens
    rw [hscene]
    rfl
  obtain ⟨htarget, hactive, hentry⟩ :=
    returned (decideTarget_trips hcongested x.opened) x.decides _ rfl
  obtain ⟨hsame, hsame'⟩ : SameEpisode x.before x.opened := x.opens.remembers.sameEpisode
  obtain ⟨hkept, hkept'⟩ := within_run settle_episode x.settles
  rw [entryAfter_congr hsame hsame'] at htarget hentry
  rw [hsame] at htarget
  exact ⟨htarget, hkept.trans hactive, hkept'.trans hentry⟩

theorem scene_profile : ∃ name, x.scene.profileName = (feeProfile K.withRails name).1 ∧
    x.scene.profile = (feeProfile K.withRails name).2 := by
  obtain ⟨woke, s₁, obs, s₂, r, -, -, -, hscene⟩ := x.opens
  rw [hscene]
  exact ⟨_, rfl, rfl⟩

theorem scene_currentFee : x.scene.currentFeePpm =
    if x.chainFee = 0 ∧ x.exploring = false then x.deps.cfg.minFeePpm else x.chainFee := by
  obtain ⟨woke, s₁, obs, s₂, r, -, -, -, hscene⟩ := x.opens
  rw [hscene]
  rfl

/-- The limits hold for the cycle; a fee of zero on the chain stands for the smallest fee. -/
structure Limited (floor ceiling smallest : ℤ) : Prop where
  floor : x.scene.rails.floorPpm ≤ floor
  ceiling : x.scene.rails.ceilingPpm ≤ ceiling
  smallest : x.chainFee = 0 → x.exploring = false → x.deps.cfg.minFeePpm ≤ smallest

end CongestedCycle

/-- The next cycle of the channel finds the episode as the one before left it, and the fee that it
decided. -/
def GoesOn (a b : CongestedCycle ω K) : Prop :=
  SameEpisode a.after b.before ∧ b.chainFee = a.target.newFeePpm

def episodeBound (entry floor ceiling smallest : ℤ) : ℤ :=
  max (max entry floor)
    (max smallest (min ceiling (max (asI64 (asF64 entry * 4.0)) (entry + 250))))

variable {x y : CongestedCycle ω K} {xs : List (CongestedCycle ω K)}
  {entry floor ceiling smallest : ℤ}

theorem CongestedCycle.decides_le (hentry : x.entry = entry)
    (hstart : x.scene.currentFeePpm ≤ episodeBound entry floor ceiling smallest)
    (hlimits : x.Limited floor ceiling smallest) :
    x.target.newFeePpm ≤ episodeBound entry floor ceiling smallest := by
  obtain ⟨⟨std, htarget⟩, -, -⟩ := x.trips
  obtain ⟨name, hname, hprofile⟩ := x.scene_profile
  obtain ⟨hcurrent, hfloor, hceiling⟩ := x.inI64
  obtain ⟨hlow, hhigh⟩ := congestionCap_bounds x.scene x.entry
  have hcap : InI64 (congestionCap x.scene x.entry) := by
    obtain ⟨hcurrent, hcurrent'⟩ := hcurrent
    obtain ⟨-, hceiling⟩ := hceiling
    exact ⟨by omega, by omega⟩
  have hmove : x.target.newFeePpm ≤ max x.scene.rails.floorPpm (congestionCap x.scene x.entry) := by
    rw [htarget]
    exact congestionMove_le hname hprofile hcurrent hfloor hcap hlow
  have hfloors := hlimits.floor
  have hceilings := hlimits.ceiling
  rw [hentry] at hhigh hmove
  rw [episodeBound] at hstart ⊢
  omega

/-- A cycle that goes on with an episode keeps its entry fee, and starts from what was decided. -/
theorem GoesOn.starts (h : GoesOn x y) (hentry : x.entry = entry) (hpos : 0 < entry)
    (hlimits : y.Limited floor ceiling smallest)
    (hle : x.target.newFeePpm ≤ episodeBound entry floor ceiling smallest) :
    y.entry = entry ∧ y.scene.currentFeePpm ≤ episodeBound entry floor ceiling smallest := by
  obtain ⟨⟨hactive, hkept⟩, hfee⟩ := h
  obtain ⟨-, hon, hleft⟩ := x.trips
  rw [hon] at hactive
  rw [hleft, hentry] at hkept
  constructor
  · rw [CongestedCycle.entry, entryAfter, enterCongestion]
    dsimp only
    rw [hactive, hkept, if_neg (by simp [hpos])]
  · rw [y.scene_currentFee]
    split
    · rename_i hzero
      have hsmallest := hlimits.smallest hzero.1 hzero.2
      rw [episodeBound]
      omega
    · rw [hfee]
      exact hle

theorem episode_bounded (hrun : (x :: xs).IsChain GoesOn) (hentry : x.entry = entry)
    (hpos : 0 < entry) (hstart : x.scene.currentFeePpm ≤ episodeBound entry floor ceiling smallest)
    (hlimits : ∀ y ∈ x :: xs, y.Limited floor ceiling smallest) :
    ∀ y ∈ x :: xs, y.target.newFeePpm ≤ episodeBound entry floor ceiling smallest ∧
      y.after.cycle.congestionActive = true ∧ y.after.cycle.congestionEntryFeePpm = entry := by
  induction xs generalizing x with
  | nil =>
    intro y hy
    obtain rfl := List.mem_singleton.mp hy
    obtain ⟨-, hactive, hkept⟩ := y.trips
    exact ⟨y.decides_le hentry hstart (hlimits y hy), hactive, hkept.trans hentry⟩
  | cons z xs ih =>
    have hle := x.decides_le hentry hstart (hlimits x List.mem_cons_self)
    obtain ⟨hnext, hrest⟩ := List.isChain_cons_cons.mp hrun
    have hlater : ∀ y ∈ z :: xs, y.Limited floor ceiling smallest :=
      fun y hy => hlimits y (List.mem_cons_of_mem x hy)
    obtain ⟨hentry', hstart'⟩ := hnext.starts hentry hpos (hlater z List.mem_cons_self) hle
    intro y hy
    rcases List.mem_cons.mp hy with rfl | hy
    · obtain ⟨-, hactive, hkept⟩ := y.trips
      exact ⟨hle, hactive, hkept.trans hentry⟩
    · exact ih hrest hentry' hstart' hlater y hy

theorem denotes_four : Denotes 4.0 (4 : ℝ) := by
  have hunpack : (4.0 : Float).toModel.unpack =
      .finite .positive 4503599627370496 (-50) (by decide) := rfl
  exact denotes_positive hunpack (by rw [zpow_neg]; norm_num)

/-- Four times a fee comes out exactly, up to fees of two to the fifty-first. -/
theorem asI64_quadruple (hpos : 0 < entry) (hsmall : entry ≤ 2251799813685248) :
    asI64 (asF64 entry * 4.0) = 4 * entry := by
  have hexact : Denotes (asF64 entry) (entry : ℝ) := asF64_exact (abs_le.mpr (by omega))
  obtain ⟨v, hv, hround⟩ := denotes_mul hexact denotes_four
  have hgrid : Grid ((4 * entry : ℤ) : ℝ) := grid_int (abs_le.mpr (by omega))
  have hproduct : (entry : ℝ) * 4 = ((4 * entry : ℤ) : ℝ) := by
    push_cast
    ring
  rw [hproduct] at hround
  have hvalue := hround.eq_of_grid hgrid
  exact le_antisymm (asI64_le hv hvalue.le (by omega)) (le_asI64 hv hvalue.ge (by omega))

/-- A congestion episode cannot run the fee away. -/
theorem congestion_episode_bounded (hrun : (x :: xs).IsChain GoesOn)
    (hfirst : x.before.cycle.congestionActive = false)
    (hlimits : ∀ y ∈ x :: xs, y.Limited floor ceiling smallest) :
    (max x.scene.currentFeePpm 1 ≤ 2251799813685248 →
      asI64 (asF64 (max x.scene.currentFeePpm 1) * 4.0) = 4 * max x.scene.currentFeePpm 1) ∧
    ∀ y ∈ x :: xs,
      y.target.newFeePpm ≤ episodeBound (max x.scene.currentFeePpm 1) floor ceiling smallest ∧
        y.after.cycle.congestionActive = true ∧
        y.after.cycle.congestionEntryFeePpm = max x.scene.currentFeePpm 1 := by
  have hpos : 0 < max x.scene.currentFeePpm 1 := by omega
  have hentry : x.entry = max x.scene.currentFeePpm 1 := if_pos (.inl hfirst)
  refine ⟨asI64_quadruple hpos, episode_bounded hrun hentry hpos ?_ hlimits⟩
  rw [episodeBound]
  omega

end Cycles

section Samples

def congestedCtx (fee : ℤ) : AdjustCtx :=
  { refreshCtx with info := { refreshCtx.info with feeProportionalMillionths := fee } }

def calmRun : ChannelRun Unit Unit Unit where
  cycle := .default
  fee := .default () ()
  world := .fresh ()

def congestedCycle? (fee : ℤ) (before : ChannelRun Unit Unit Unit) :
    Option (CongestedCycle Unit plainKernel) :=
  let K := plainKernel.withRails
  let d := refreshDeps 100
  match hslept : sleepCheck d (congestedCtx fee) true 200000 before with
  | (.ok (some woke), s₁) =>
    match hobserved : observe d (congestedCtx fee) (feeProfile K d.cfg.feeProfile).2 200000 s₁ with
    | (.ok (some obs), s₂) =>
      match hrails : asking (rails K d (congestedCtx fee) .default
          (startingFee d.cfg (congestedCtx fee) true) 200000) s₂ with
      | (.ok r, s₃) =>
        let sc := scene K d (congestedCtx fee) true true (startingFee d.cfg (congestedCtx fee) true)
          200000 woke obs r before.cycle
        match hdecides : decideTarget K d sc s₃ with
        | (.ok (some t), s₄) =>
          match hsettles : settle K d sc t s₄ with
          | (.ok result, s₅) =>
            if h : InI64 sc.currentFeePpm ∧ InI64 sc.rails.floorPpm ∧ InI64 sc.rails.ceilingPpm then
              some
                { deps := d, ctx := congestedCtx fee, vegas := .default, exploring := true
                  now := 200000, before := before, scene := sc, opened := s₃, target := t
                  decided := s₄, result := result, after := s₅
                  opens := ⟨woke, s₁, obs, s₂, r, hslept, hobserved, hrails, rfl⟩
                  decides := hdecides
                  settles := hsettles
                  inI64 := h }
            else none
          | _ => none
        | _ => none
      | _ => none
    | _ => none
  | _ => none

def twoTrips? (fee decided : ℤ) :
    Option (CongestedCycle Unit plainKernel × CongestedCycle Unit plainKernel) :=
  (congestedCycle? fee calmRun).bind fun x => (congestedCycle? decided x.after).map fun y => (x, y)

instance {ω τ π : Type} {K : Kernel τ π} (x y : CongestedCycle ω K) : Decidable (GoesOn x y) :=
  inferInstanceAs (Decidable ((_ ∧ _) ∧ _))

instance {ω τ π : Type} {K : Kernel τ π} (x : CongestedCycle ω K) (floor ceiling smallest : ℤ) :
    Decidable (x.Limited floor ceiling smallest) :=
  decidable_of_iff (x.scene.rails.floorPpm ≤ floor ∧ x.scene.rails.ceilingPpm ≤ ceiling ∧
      (x.chainFee = 0 → x.exploring = false → x.deps.cfg.minFeePpm ≤ smallest))
    ⟨fun h => ⟨h.1, h.2.1, h.2.2⟩, fun h => ⟨h.floor, h.ceiling, h.smallest⟩⟩

/-- From a hundred the first trip goes to 350, and the episode stays below 400. -/
theorem congestion_episode_bounded_hundred :
    ∃ x y : CongestedCycle Unit plainKernel, GoesOn x y ∧ x.target.newFeePpm = 350 ∧
      y.target.newFeePpm ≤ 400 := by
  have htrips : ((twoTrips? 100 350).any fun p => decide (GoesOn p.1 p.2) &&
      decide (p.1.before.cycle.congestionActive = false) &&
      (decide (p.1.Limited 50 2000 100) && decide (p.2.Limited 50 2000 100)) &&
      decide (p.1.scene.currentFeePpm = 100) && decide (p.1.target.newFeePpm = 350)) = true := by
    decide +kernel
  obtain ⟨⟨x, y⟩, -, htrips⟩ := (Option.any_eq_true _ _).mp htrips
  simp only [Bool.and_eq_true, decide_eq_true_eq] at htrips
  obtain ⟨⟨⟨⟨hgoes, hfirst⟩, hx, hy⟩, hcurrent⟩, hdecided⟩ := htrips
  have hlimits : ∀ z ∈ [x, y], z.Limited 50 2000 100 := by simp [hx, hy]
  obtain ⟨hfour, hbound⟩ := congestion_episode_bounded (.cons_cons hgoes (.singleton y)) hfirst
    hlimits
  obtain ⟨hle, -, -⟩ := hbound y (by simp)
  rw [hcurrent] at hfour hle
  have hmax : max (100 : ℤ) 1 = 100 := by decide
  rw [hmax] at hfour hle
  rw [episodeBound, hfour (by decide)] at hle
  exact ⟨x, y, hgoes, hdecided, by omega⟩

/-- From nothing the first trip goes to 250, and the next one above it. -/
theorem zero_entry_runs_past_its_bound : ¬ ∀ x y : CongestedCycle Unit plainKernel,
    GoesOn x y → x.before.cycle.congestionActive = false →
    (∀ z ∈ [x, y], z.Limited 50 2000 100) →
    y.target.newFeePpm ≤
        max (max x.scene.currentFeePpm 50)
          (min 2000 (max (4 * x.scene.currentFeePpm) (x.scene.currentFeePpm + 250))) ∧
      y.after.cycle.congestionEntryFeePpm = x.scene.currentFeePpm := by
  intro h
  have htrips : ((twoTrips? 0 250).any fun p => decide (GoesOn p.1 p.2) &&
      decide (p.1.before.cycle.congestionActive = false) &&
      (decide (p.1.Limited 50 2000 100) && decide (p.2.Limited 50 2000 100)) &&
      decide (p.1.scene.currentFeePpm = 0) && decide (p.2.target.newFeePpm = 251)) = true := by
    decide +kernel
  obtain ⟨⟨x, y⟩, -, htrips⟩ := (Option.any_eq_true _ _).mp htrips
  simp only [Bool.and_eq_true, decide_eq_true_eq] at htrips
  obtain ⟨⟨⟨⟨hgoes, hfirst⟩, hx, hy⟩, hcurrent⟩, hdecided⟩ := htrips
  obtain ⟨hle, -⟩ := h x y hgoes hfirst (by simp [hx, hy])
  rw [hcurrent, hdecided] at hle
  exact absurd hle (by decide)

end Samples

end FeeCycle
