import RevenueOps.ThompsonExact

/-! Whole lives of a learner over exact numbers. A run applies windows, discounts, nudges and floor
reflexes in any order; beside it stand the states it went through and the windows since the last one
that earned. -/
namespace Thompson

open Arithmetic WeightedMean

noncomputable section

section Steps

inductive Op where
  | window (fee revenueRate hours : ℝ) (timeBucket : String) (congested : Bool) (now : ℤ)
  | discount (gamma : ℝ)
  | nudge (target weight : ℝ) (now : ℤ)
  | vegas (multiplier newFloor : ℝ) (now : ℤ)

def Op.apply (s : GaussianThompsonState ℝ) : Op → GaussianThompsonState ℝ
  | .window fee revenueRate hours timeBucket congested now =>
    updatePosterior s fee revenueRate hours timeBucket congested now
  | .discount gamma => applyDtsDiscount s gamma
  | .nudge target weight now => recordPosteriorNudge s target weight now
  | .vegas multiplier newFloor now => applyVegasAdjustment s multiplier newFloor now

def Op.silence (s : GaussianThompsonState ℝ) (quiet : List (ℝ × ℤ)) : Op → List (ℝ × ℤ)
  | .window fee revenueRate _ _ _ now =>
    if fee < 0 then quiet
    else if isMeaningfulRate s (guardedRate revenueRate) now then []
    else quiet ++ [(fee, now)]
  | _ => quiet

structure Learner where
  state : GaussianThompsonState ℝ
  visited : List (GaussianThompsonState ℝ)
  quiet : List (ℝ × ℤ)

def Learner.fresh : Learner := ⟨.default, [.default], []⟩

def Learner.step (l : Learner) (op : Op) : Learner :=
  ⟨op.apply l.state, l.visited ++ [op.apply l.state], op.silence l.state l.quiet⟩

def Learner.run (ops : List Op) : Learner := ops.foldl Learner.step .fresh

/-- The prior mean, the observed fees, probes among them, and the targets of the nudges that a
state holds lie between the bounds. -/
structure Held (lo hi : ℝ) (s : GaussianThompsonState ℝ) : Prop where
  prior : lo ≤ s.priorMeanFee ∧ s.priorMeanFee ≤ hi
  fees : ∀ o ∈ s.observations, lo ≤ o.fee ∧ o.fee ≤ hi
  targets : ∀ n ∈ s.posteriorBias, lo ≤ n.target ∧ n.target ≤ hi

structure Sound (l : Learner) : Prop where
  observations : l.state.observations.length ≤ 200
  nudges : l.state.posteriorBias.length ≤ 50
  streak : l.state.zeroRevenueStreak = l.quiet.length
  runFee : l.state.zeroRunStartFee = (l.quiet.head?.map Prod.fst).getD 0
  runTs : l.state.zeroRunStartTs = (l.quiet.head?.map Prod.snd).getD 0
  std : 10 ≤ l.state.posteriorStd
  noise : 10 ≤ l.state.noiseVariance
  mean : ∀ lo hi, (∀ s ∈ l.visited, Held lo hi s) → Stretched lo hi l.state.posteriorMean

structure Inv (l : Learner) : Prop where
  sound : Sound l
  weights : ∀ o ∈ l.state.observations, 0 < o.weight
  priorStd : 10 ≤ l.state.priorStdFee
  current : l.state ∈ l.visited

end Steps

section Blend

variable {lo hi : ℝ} {s : GaussianThompsonState ℝ} {target weight : ℝ} {now : ℤ}

theorem blend_rebuilt (s : GaussianThompsonState ℝ) (target weight : ℝ) :
    Rebuilt s (blendPosteriorToward s target weight) ∧
      (blendPosteriorToward s target weight).posteriorStd = s.posteriorStd ∧
      (blendPosteriorToward s target weight).noiseVariance = s.noiseVariance := by
  rw [blendPosteriorToward]
  split
  · exact ⟨.refl s, rfl, rfl⟩
  · exact ⟨⟨rfl, rfl, rfl, rfl, rfl, rfl, rfl⟩, rfl, rfl⟩

theorem blend_mean (h : Stretched lo hi s.posteriorMean) (hlo : lo ≤ target) (hhi : target ≤ hi) :
    Stretched lo hi (blendPosteriorToward s target weight).posteriorMean := by
  rw [blendPosteriorToward]
  split
  · exact h
  · rename_i hweight
    norm_num at hweight
    have hsum : (0 : ℝ) < 1.0 + weight := by
      norm_num
      linarith
    refine h.blend (.of_between hlo hhi) (div_pos hweight hsum).le ((div_le_one hsum).mpr ?_)
    norm_num

theorem blend_posterior (h : Posterior lo hi s) (hlo : lo ≤ target) (hhi : target ≤ hi) :
    Posterior lo hi (blendPosteriorToward s target weight) := by
  obtain ⟨-, hstd, hnoise⟩ := blend_rebuilt s target weight
  exact ⟨blend_mean h.mean hlo hhi, hstd ▸ h.std, hnoise ▸ h.noise⟩

end Blend

section Replay

variable {lo hi : ℝ} {s : GaussianThompsonState ℝ} {now : ℤ}

theorem replay_kept (bias kept : List (Nudge ℝ)) (now : ℤ) :
    ∃ alive, alive.Sublist bias ∧ (bias.foldl (replayNudge now) (s, kept)).2 = kept ++ alive := by
  induction bias generalizing s kept with
  | nil => exact ⟨[], .refl _, (List.append_nil _).symm⟩
  | cons n bias ih =>
    rw [List.foldl_cons, replayNudge]
    by_cases hfaded : n.weight * halfLife (F64.max (hoursBetween now n.ts) 0.0) biasDecayHours <
        biasMinWeight
    · rw [if_pos hfaded]
      obtain ⟨alive, hsub, heq⟩ := ih (s := s) kept
      exact ⟨alive, hsub.cons n, heq⟩
    · rw [if_neg hfaded]
      obtain ⟨alive, hsub, heq⟩ := ih (kept ++ [n])
      refine ⟨n :: alive, hsub.cons_cons n, heq.trans ?_⟩
      simp

theorem replay_posterior (h : Posterior lo hi s) (bias : List (Nudge ℝ)) (now : ℤ)
    (hb : ∀ n ∈ bias, lo ≤ n.target ∧ n.target ≤ hi) :
    Rebuilt s (bias.foldl (replayNudge now) (s, [])).1 ∧
      Posterior lo hi (bias.foldl (replayNudge now) (s, [])).1 := by
  refine List.foldlRecOn
    (motive := fun acc : GaussianThompsonState ℝ × List (Nudge ℝ) =>
      Rebuilt s acc.1 ∧ Posterior lo hi acc.1) _ _ ⟨.refl s, h⟩ fun acc hacc n hn => ?_
  rw [replayNudge]
  split
  · exact hacc
  · exact ⟨hacc.1.trans (blend_rebuilt _ _ _).1, blend_posterior hacc.2 (hb n hn).1 (hb n hn).2⟩

/-- After the replay: the posterior is in reach and the nudges are some of the old ones. -/
theorem bias_posterior (h : Posterior lo hi s) (now : ℤ)
    (hb : ∀ n ∈ s.posteriorBias, lo ≤ n.target ∧ n.target ≤ hi) :
    Rebuilt s { applyPosteriorBias s now with posteriorBias := s.posteriorBias } ∧
      Posterior lo hi (applyPosteriorBias s now) ∧
      (applyPosteriorBias s now).posteriorBias.Sublist s.posteriorBias := by
  rw [applyPosteriorBias]
  split
  · exact ⟨.refl s, h, .refl _⟩
  · obtain ⟨hsame, hpost⟩ := replay_posterior h s.posteriorBias now hb
    obtain ⟨alive, hsub, hkept⟩ := replay_kept (s := s) s.posteriorBias [] now
    refine ⟨⟨hsame.observations, rfl, hsame.priorMeanFee, hsame.priorStdFee,
      hsame.zeroRevenueStreak, hsame.zeroRunStartFee, hsame.zeroRunStartTs⟩,
      ⟨hpost.mean, hpost.std, hpost.noise⟩, ?_⟩
    dsimp only
    rw [hkept]
    exact hsub

end Replay

section Nudges

variable {lo hi : ℝ} {s : GaussianThompsonState ℝ} {target weight : ℝ} {now : ℤ}

theorem refreshNudge_length {bias out : List (Nudge ℝ)}
    (h : refreshNudge target weight now bias = some out) : out.length = bias.length := by
  induction bias generalizing out with
  | nil => cases h
  | cons n rest ih =>
    rw [refreshNudge] at h
    split at h
    · cases h
      rfl
    · obtain ⟨out', hout, rfl⟩ := Option.map_eq_some_iff.mp h
      simp [ih hout]

theorem appendNudge_length (bias : List (Nudge ℝ)) (n : Nudge ℝ) :
    (appendNudge bias n).length ≤ 50 := by
  simp only [appendNudge, List.length_drop, List.length_append, maxBiasNudges]
  omega

theorem mem_appendNudge (bias : List (Nudge ℝ)) (n : Nudge ℝ) : n ∈ appendNudge bias n := by
  have hdrop : (bias ++ [n]).length - maxBiasNudges ≤ bias.length := by
    simp only [List.length_append, List.length_singleton, maxBiasNudges]
    omega
  rw [appendNudge, List.drop_append_of_le_length hdrop]
  simp

/-- A nudge is ignored, or refreshes one that is there, or is appended and blended in. -/
theorem record_cases (s : GaussianThompsonState ℝ) (target weight : ℝ) (now : ℤ) :
    recordPosteriorNudge s target weight now = s ∨
      (∃ bias, bias.length = s.posteriorBias.length ∧
        recordPosteriorNudge s target weight now = { s with posteriorBias := bias }) ∨
      recordPosteriorNudge s target weight now = blendPosteriorToward
        { s with posteriorBias := appendNudge s.posteriorBias ⟨target, weight, now⟩ }
        target weight := by
  rw [recordPosteriorNudge]
  simp only [isFinite_exact, Bool.and_self, Bool.not_true, Bool.false_eq_true, if_false]
  split
  · exact .inl rfl
  · split
    · rename_i bias hrefresh
      exact .inr (.inl ⟨bias, refreshNudge_length hrefresh, rfl⟩)
    · exact .inr (.inr rfl)

/-- What one step leaves of the invariant, given what the state it reaches holds. -/
structure Kept (s s' : GaussianThompsonState ℝ) : Prop where
  observations : s'.observations = s.observations
  nudges : s.posteriorBias.length ≤ 50 → s'.posteriorBias.length ≤ 50
  priorStd : s'.priorStdFee = s.priorStdFee
  streak : s'.zeroRevenueStreak = s.zeroRevenueStreak
  runFee : s'.zeroRunStartFee = s.zeroRunStartFee
  runTs : s'.zeroRunStartTs = s.zeroRunStartTs
  noise : s'.noiseVariance = s.noiseVariance
  std : 10 ≤ s.posteriorStd → 10 ≤ s'.posteriorStd
  mean : ∀ lo hi, Held lo hi s' → Stretched lo hi s.posteriorMean →
    Stretched lo hi s'.posteriorMean

theorem record_kept (s : GaussianThompsonState ℝ) (target weight : ℝ) (now : ℤ) :
    Kept s (recordPosteriorNudge s target weight now) := by
  rcases record_cases s target weight now with h | ⟨bias, hlen, h⟩ | h
  · rw [h]
    exact ⟨rfl, id, rfl, rfl, rfl, rfl, rfl, id, fun _ _ _ hm => hm⟩
  · rw [h]
    exact ⟨rfl, fun hb => hlen ▸ hb, rfl, rfl, rfl, rfl, rfl, id, fun _ _ _ hm => hm⟩
  · set t : GaussianThompsonState ℝ :=
      { s with posteriorBias := appendNudge s.posteriorBias ⟨target, weight, now⟩ } with ht
    obtain ⟨hsame, hstd, hnoise⟩ := blend_rebuilt t target weight
    rw [h]
    refine ⟨hsame.observations, fun _ => ?_, hsame.priorStdFee, hsame.zeroRevenueStreak,
      hsame.zeroRunStartFee, hsame.zeroRunStartTs, hnoise, fun hs => hstd ▸ hs, ?_⟩
    · rw [hsame.posteriorBias]
      exact appendNudge_length _ _
    · intro lo hi hheld hmean
      have htarget := hheld.targets ⟨target, weight, now⟩
        (hsame.posteriorBias ▸ mem_appendNudge s.posteriorBias _)
      exact blend_mean (s := t) hmean htarget.1 htarget.2

theorem Kept.trans {a b c : GaussianThompsonState ℝ} (hab : Kept a b) (hbc : Kept b c)
    (hmean : b.posteriorMean = a.posteriorMean) : Kept a c where
  observations := hbc.observations.trans hab.observations
  nudges := fun h => hbc.nudges (hab.nudges h)
  priorStd := hbc.priorStd.trans hab.priorStd
  streak := hbc.streak.trans hab.streak
  runFee := hbc.runFee.trans hab.runFee
  runTs := hbc.runTs.trans hab.runTs
  noise := hbc.noise.trans hab.noise
  std := fun h => hbc.std (hab.std h)
  mean := fun lo hi hheld hm => hbc.mean lo hi hheld (hmean ▸ hm)

theorem vegas_kept (s : GaussianThompsonState ℝ) (multiplier newFloor : ℝ) (now : ℤ) :
    Kept s (applyVegasAdjustment s multiplier newFloor now) := by
  rw [applyVegasAdjustment]
  split
  · exact ⟨rfl, id, rfl, rfl, rfl, rfl, rfl, id, fun _ _ _ hm => hm⟩
  · have hwidened : Kept s { s with
        posteriorStd := F64.max minStd (s.posteriorStd * F64.min multiplier 2.0)
        posteriorStdIsInt := false } :=
      ⟨rfl, id, rfl, rfl, rfl, rfl, rfl, fun _ => minStd_exact ▸ le_max_left _ _,
        fun _ _ _ hm => hm⟩
    dsimp only
    split
    · exact hwidened.trans (record_kept _ _ _ _) rfl
    · exact hwidened

end Nudges

section Discount

variable {s : GaussianThompsonState ℝ} {gamma w : ℝ}

theorem discountedWeight_le (h : 0 < w) (hg : gamma < 1) : discountedWeight gamma w ≤ w :=
  max_le (min_le_left _ _) (mul_le_of_le_one_right h.le hg.le)

theorem discountedWeight_pos (h : 0 < w) (hg : 0 < gamma) : 0 < discountedWeight gamma w :=
  lt_of_lt_of_le (mul_pos h hg) (le_max_right _ _)

theorem discount_ignored (hg : ¬(0 < gamma ∧ gamma < 1)) : applyDtsDiscount s gamma = s := by
  rw [applyDtsDiscount, if_pos]
  norm_num
  by_contra hout
  exact hg (by simpa only [not_or, not_le] using hout)

theorem discount_cases (s : GaussianThompsonState ℝ) (gamma : ℝ) :
    applyDtsDiscount s gamma = s ∨ 0 < gamma ∧ gamma < 1 ∧
      (applyDtsDiscount s gamma).observations =
        s.observations.map fun o => { o with weight := discountedWeight gamma o.weight } := by
  by_cases hg : 0 < gamma ∧ gamma < 1
  · refine .inr ⟨hg.1, hg.2, ?_⟩
    rw [applyDtsDiscount, if_neg]
    norm_num
    exact hg
  · exact .inl (discount_ignored hg)

theorem discount_weights (h : ∀ o ∈ s.observations, 0 < o.weight) (gamma : ℝ) :
    List.Forall₂ (fun o o' : Observation ℝ => o'.weight ≤ o.weight) s.observations
      (applyDtsDiscount s gamma).observations := by
  rcases discount_cases s gamma with hsame | ⟨-, hg, hmap⟩
  · rw [hsame]
    exact List.forall₂_same.mpr fun o _ => le_rfl
  · rw [hmap]
    exact List.forall₂_map_right_iff.mpr (List.forall₂_same.mpr fun o ho =>
      discountedWeight_le (h o ho) hg)

/-- The precision stays over its minimum, so a std over 200 comes down to it; a
smaller one grows. -/
theorem discount_std (h : 10 ≤ s.posteriorStd) (gamma : ℝ) :
    min s.posteriorStd 200 ≤ (applyDtsDiscount s gamma).posteriorStd := by
  by_cases hg : 0 < gamma ∧ gamma < 1
  · have hsq : F64Functions.powf s.posteriorStd 2.0 = s.posteriorStd ^ 2 := by
      rw [powf_real, show (2.0 : ℝ) = ((2 : ℕ) : ℝ) by norm_num, Real.rpow_natCast]
    have hone : F64.max (s.posteriorStd ^ 2) 1.0 = s.posteriorStd ^ 2 := by
      have hten : (1.0 : ℝ) ≤ 10 ^ 2 := by norm_num
      exact max_eq_left (hten.trans (pow_le_pow_left₀ (by norm_num) h 2))
    have hdisc : (applyDtsDiscount s gamma).posteriorStd = Real.sqrt (1.0 /
        max (1.0 / s.posteriorStd ^ 2 * gamma) minPrecision) := by
      rw [applyDtsDiscount, if_neg]
      · simp only [hsq, hone, sqrt_real, max_exact]
      · norm_num
        exact hg
    have hs2 : 0 < s.posteriorStd ^ 2 := by positivity
    have hmin0 : 0 ≤ min s.posteriorStd 200 := le_min (by linarith) (by norm_num)
    have hmin2 : min s.posteriorStd 200 ^ 2 ≤ s.posteriorStd ^ 2 :=
      pow_le_pow_left₀ hmin0 (min_le_left _ _) 2
    have hmin200 : min s.posteriorStd 200 ^ 2 ≤ 200 ^ 2 :=
      pow_le_pow_left₀ hmin0 (min_le_right _ _) 2
    have hprec : (0 : ℝ) < minPrecision := by norm_num [minPrecision]
    rw [hdisc]
    refine Real.le_sqrt_of_sq_le ((le_div_iff₀ (lt_max_of_lt_right hprec)).mpr ?_)
    rcases le_total (1.0 / s.posteriorStd ^ 2 * gamma) minPrecision with hcap | hcap
    · rw [max_eq_right hcap]
      norm_num [minPrecision]
      linarith
    · rw [max_eq_left hcap]
      have hfrac : min s.posteriorStd 200 ^ 2 / s.posteriorStd ^ 2 ≤ 1 := (div_le_one hs2).mpr hmin2
      have hfrac0 : 0 ≤ min s.posteriorStd 200 ^ 2 / s.posteriorStd ^ 2 := by positivity
      calc min s.posteriorStd 200 ^ 2 * (1.0 / s.posteriorStd ^ 2 * gamma)
          = min s.posteriorStd 200 ^ 2 / s.posteriorStd ^ 2 * gamma := by
            norm_num
            ring
        _ ≤ 1 * 1 := mul_le_mul hfrac hg.2.le hg.1.le zero_le_one
        _ = 1.0 := by norm_num
  · rw [discount_ignored hg]
    exact min_le_left _ _

theorem discount_kept (s : GaussianThompsonState ℝ) (gamma : ℝ) :
    Rebuilt s { applyDtsDiscount s gamma with observations := s.observations } ∧
      (applyDtsDiscount s gamma).posteriorMean = s.posteriorMean ∧
      (applyDtsDiscount s gamma).noiseVariance = s.noiseVariance := by
  rw [applyDtsDiscount]
  split <;> exact ⟨⟨rfl, rfl, rfl, rfl, rfl, rfl, rfl⟩, rfl, rfl⟩

end Discount

section Window

variable {s : GaussianThompsonState ℝ} {fee revenueRate hours : ℝ} {timeBucket : String}
  {congested : Bool} {now : ℤ}

theorem guardedHours_pos (hours : ℝ) : 0 < guardedHours hours := by
  rw [guardedHours]
  split
  · norm_num
  · rename_i h
    norm_num at h
    exact h

theorem windowWeight_pos (hours : ℝ) : 0 < F64.min (1.0 : ℝ) (guardedHours hours / 6.0) :=
  lt_min (by norm_num) (div_pos (guardedHours_pos hours) (by norm_num))

theorem windowObservation_weight (weight : ℝ) :
    (windowObservation fee revenueRate weight now timeBucket congested).weight = weight := by
  cases congested <;> rfl

structure Streak (s : GaussianThompsonState ℝ) (quiet : List (ℝ × ℤ)) : Prop where
  streak : s.zeroRevenueStreak = quiet.length
  runFee : s.zeroRunStartFee = (quiet.head?.map Prod.fst).getD 0
  runTs : s.zeroRunStartTs = (quiet.head?.map Prod.snd).getD 0

theorem streak_earned (s : GaussianThompsonState ℝ) (rate : ℝ) (now : ℤ) :
    Streak (earned s rate now) [] :=
  ⟨rfl, by norm_num [earned], rfl⟩

theorem Streak.silent {quiet : List (ℝ × ℤ)} (h : Streak s quiet) (fee : ℝ) (now : ℤ) :
    Streak (silent s fee now) (quiet ++ [(fee, now)]) := by
  have hfirst : s.zeroRevenueStreak = 0 ↔ quiet = [] := by
    rw [h.streak]
    cases quiet <;> simp
    omega
  constructor
  · simp only [Thompson.silent, h.streak, List.length_append, List.length_singleton]
    push_cast
    ring
  · by_cases hnil : quiet = []
    · simp [Thompson.silent, hfirst.mpr hnil, hnil]
    · obtain ⟨q, rest, rfl⟩ := List.exists_cons_of_ne_nil hnil
      have hrun : s.zeroRevenueStreak ≠ 0 := fun hz => hnil (hfirst.mp hz)
      simp [Thompson.silent, hrun, h.runFee]
  · by_cases hnil : quiet = []
    · simp [Thompson.silent, hfirst.mpr hnil, hnil]
    · obtain ⟨q, rest, rfl⟩ := List.exists_cons_of_ne_nil hnil
      have hrun : s.zeroRevenueStreak ≠ 0 := fun hz => hnil (hfirst.mp hz)
      simp [Thompson.silent, hrun, h.runTs]

structure Taken (s t : GaussianThompsonState ℝ) (quiet : List (ℝ × ℤ)) : Prop where
  observations : t.observations.length ≤ 200
  weights : (∀ o ∈ s.observations, 0 < o.weight) → ∀ o ∈ t.observations, 0 < o.weight
  streak : Streak t quiet
  posteriorBias : t.posteriorBias = s.posteriorBias
  priorMeanFee : t.priorMeanFee = s.priorMeanFee
  priorStdFee : t.priorStdFee = s.priorStdFee
  noise : t.noiseVariance = s.noiseVariance

theorem takeWindow_taken {quiet : List (ℝ × ℤ)} (h : Streak s quiet) (hfee : 0 ≤ fee) :
    Taken s (takeWindow s fee revenueRate hours timeBucket congested now)
      (Op.silence s quiet (.window fee revenueRate hours timeBucket congested now)) := by
  have hobs : (takeWindow s fee revenueRate hours timeBucket congested now).observations.length ≤
      200 := by
    simp only [takeWindow, pruneObservations, List.length_drop, maxObservations]
    omega
  have hprobe (probe : Option ℤ) (o : Observation ℝ)
      (ho : o ∈ probeObservations probe (F64.min 1.0 (guardedHours hours / 6.0)) now timeBucket) :
      0 < o.weight := by
    cases probe with
    | none => cases ho
    | some p =>
      rw [List.mem_singleton.mp ho]
      exact windowWeight_pos hours
  have hcounted (t : GaussianThompsonState ℝ) (ht : t.observations = s.observations)
    (o : Observation ℝ)
      (probe : Option ℤ)
      (ho : o ∈ pruneObservations ((t.observations ++ [windowObservation fee
        (guardedRate revenueRate) (F64.min 1.0 (guardedHours hours / 6.0)) now timeBucket
        congested]) ++ probeObservations probe (F64.min 1.0 (guardedHours hours / 6.0)) now
        timeBucket)) (hw : ∀ o ∈ s.observations, 0 < o.weight) : 0 < o.weight := by
    rcases List.mem_append.mp (List.mem_of_mem_drop ho) with ho | ho
    · rcases List.mem_append.mp ho with ho | ho
      · exact hw o (ht ▸ ho)
      · rw [List.mem_singleton.mp ho, windowObservation_weight]
        exact windowWeight_pos hours
    · exact hprobe probe o ho
  have hnot : ¬fee < 0 := not_lt.mpr hfee
  by_cases hrate : isMeaningfulRate s (guardedRate revenueRate) now = true
  · have hquiet :
        Op.silence s quiet (.window fee revenueRate hours timeBucket congested now) = [] := by
      simp only [Op.silence, hnot, hrate, if_true, if_false]
    rw [hquiet]
    have hstreak := streak_earned s (guardedRate revenueRate) now
    refine ⟨hobs, fun hw o ho => ?_, ?_, ?_, ?_, ?_, ?_⟩
    · simp only [takeWindow, hrate, if_true] at ho
      exact hcounted (earned s (guardedRate revenueRate) now) rfl o _ ho hw
    · simp only [takeWindow, hrate, if_true]
      exact ⟨hstreak.streak, hstreak.runFee, hstreak.runTs⟩
    all_goals simp only [takeWindow, hrate, if_true, earned]
  · have hquiet : Op.silence s quiet (.window fee revenueRate hours timeBucket congested now) =
        quiet ++ [(fee, now)] := by
      simp only [Op.silence, hnot, hrate, if_false]
      rfl
    rw [hquiet]
    have hstreak := h.silent fee now
    have hfalse : isMeaningfulRate s (guardedRate revenueRate) now = false :=
      Bool.eq_false_iff.mpr hrate
    refine ⟨hobs, fun hw o ho => ?_, ?_, ?_, ?_, ?_, ?_⟩
    · simp only [takeWindow, hfalse] at ho
      exact hcounted (Thompson.silent s fee now) rfl o _ ho hw
    · simp only [takeWindow, hfalse]
      exact ⟨hstreak.streak, hstreak.runFee, hstreak.runTs⟩
    all_goals simp [takeWindow, hfalse, Thompson.silent]

end Window

section Runs

variable {l : Learner} {s t : GaussianThompsonState ℝ}

theorem exists_held (s : GaussianThompsonState ℝ) : ∃ lo hi, Held lo hi s := by
  set held := s.priorMeanFee ::
    (s.observations.map Observation.fee ++ s.posteriorBias.map Nudge.target) with hheld
  have hbounds (x : ℝ) (hx : x ∈ held) : minOf held ≤ x ∧ x ≤ maxOf held :=
    ⟨minOf_le hx, le_maxOf hx⟩
  refine ⟨minOf held, maxOf held, hbounds _ (by simp [hheld]), fun o ho => hbounds _ ?_,
    fun n hn => hbounds _ ?_⟩
  · exact List.mem_cons_of_mem _ (List.mem_append_left _ (List.mem_map_of_mem ho))
  · exact List.mem_cons_of_mem _ (List.mem_append_right _ (List.mem_map_of_mem hn))

theorem Held.grounded {lo hi : ℝ} (h : Held lo hi t) (hw : ∀ o ∈ t.observations, 0 < o.weight)
    (hstd : 10 ≤ t.priorStdFee) (hnoise : 10 ≤ t.noiseVariance) : Grounded lo hi t :=
  ⟨fun o ho => ⟨hw o ho, h.fees o ho⟩, h.prior.1, h.prior.2, hstd, hnoise⟩

theorem recompute_posterior {lo hi : ℝ} (h : Held lo hi t) (hw : ∀ o ∈ t.observations, 0 < o.weight)
    (hstd : 10 ≤ t.priorStdFee) (hnoise : 10 ≤ t.noiseVariance) (recomputeNow biasNow : ℤ) :
    Rebuilt t { recomputePosteriorAtTimes t recomputeNow biasNow with
      posteriorBias := t.posteriorBias } ∧
      Posterior lo hi (recomputePosteriorAtTimes t recomputeNow biasNow) ∧
      (recomputePosteriorAtTimes t recomputeNow biasNow).posteriorBias.Sublist t.posteriorBias := by
  obtain ⟨hcore, hpost⟩ := core_posterior (h.grounded hw hstd hnoise) recomputeNow
  obtain ⟨hsame, hrest, hsub⟩ := bias_posterior hpost biasNow
    (hcore.posteriorBias ▸ h.targets)
  rw [recomputePosteriorAtTimes]
  refine ⟨⟨hsame.observations.trans hcore.observations, rfl,
    hsame.priorMeanFee.trans hcore.priorMeanFee, hsame.priorStdFee.trans hcore.priorStdFee,
    hsame.zeroRevenueStreak.trans hcore.zeroRevenueStreak,
    hsame.zeroRunStartFee.trans hcore.zeroRunStartFee,
    hsame.zeroRunStartTs.trans hcore.zeroRunStartTs⟩, hrest, ?_⟩
  exact hcore.posteriorBias ▸ hsub

theorem Inv.streak (h : Inv l) : Streak l.state l.quiet :=
  ⟨h.sound.streak, h.sound.runFee, h.sound.runTs⟩

theorem Learner.current (l : Learner) (op : Op) : (l.step op).state ∈ (l.step op).visited :=
  List.mem_append_right _ (List.mem_singleton.mpr rfl)

theorem Learner.held_before {lo hi : ℝ} {op : Op} (hheld : ∀ s ∈ (l.step op).visited, Held lo hi s)
    (s : GaussianThompsonState ℝ) (hs : s ∈ l.visited) : Held lo hi s :=
  hheld s (List.mem_append_left _ hs)

/-- A window taken in and rebuilt over. The observations it takes are those of the state it leads
to, and its nudges those of the state before. -/
theorem step_taken (now : ℤ) (h : Inv l) {op : Op}
    (htaken : Taken l.state t (op.silence l.state l.quiet))
    (hstate : (l.step op).state = recomputePosteriorAtTimes t now now) : Inv (l.step op) := by
  have hweights := htaken.weights h.weights
  have hstd : 10 ≤ t.priorStdFee := htaken.priorStdFee ▸ h.priorStd
  have hnoise : 10 ≤ t.noiseVariance := htaken.noise ▸ h.sound.noise
  obtain ⟨lo₀, hi₀, hheld₀⟩ := exists_held t
  obtain ⟨hsame, hpost, hsub⟩ := recompute_posterior hheld₀ hweights hstd hnoise now now
  have hobs : (l.step op).state.observations = t.observations := by
    rw [hstate]
    exact hsame.observations
  have hbias : t.posteriorBias.length ≤ 50 := by
    rw [htaken.posteriorBias]
    exact h.sound.nudges
  refine ⟨⟨?_, ?_, ?_, ?_, ?_, ?_, ?_, ?_⟩, ?_, ?_, l.current op⟩
  · rw [hobs]
    exact htaken.observations
  · rw [hstate]
    exact hsub.length_le.trans hbias
  · rw [hstate]
    exact hsame.zeroRevenueStreak.trans htaken.streak.streak
  · rw [hstate]
    exact hsame.zeroRunStartFee.trans htaken.streak.runFee
  · rw [hstate]
    exact hsame.zeroRunStartTs.trans htaken.streak.runTs
  · rw [hstate]
    exact hpost.std
  · rw [hstate]
    exact hpost.noise
  · intro lo hi hheld
    have hnew := hheld _ (l.current op)
    have hold := Learner.held_before hheld _ h.current
    have hground : Held lo hi t := by
      refine ⟨?_, fun o ho => hnew.fees o ?_, fun n hn => hold.targets n ?_⟩
      · rw [htaken.priorMeanFee]
        exact hold.prior
      · rw [hobs]
        exact ho
      · rw [← htaken.posteriorBias]
        exact hn
    rw [hstate]
    exact (recompute_posterior hground hweights hstd hnoise now now).2.1.mean
  · rw [hobs]
    exact hweights
  · rw [hstate]
    exact hstd.trans_eq hsame.priorStdFee.symm

theorem step_kept (h : Inv l) {op : Op} (hkept : Kept l.state (op.apply l.state))
    (hquiet : op.silence l.state l.quiet = l.quiet) : Inv (l.step op) := by
  have hs := h.sound
  have hstep : (l.step op).quiet = l.quiet := hquiet
  refine ⟨⟨?_, hkept.nudges hs.nudges, ?_, ?_, ?_, hkept.std hs.std, ?_, ?_⟩, ?_, ?_,
    l.current op⟩
  · exact hkept.observations ▸ hs.observations
  · exact (hkept.streak.trans hs.streak).trans (by rw [hstep])
  · exact (hkept.runFee.trans hs.runFee).trans (by rw [hstep])
  · exact (hkept.runTs.trans hs.runTs).trans (by rw [hstep])
  · exact hkept.noise ▸ hs.noise
  · intro lo hi hheld
    exact hkept.mean lo hi (hheld _ (l.current op)) (hs.mean lo hi (Learner.held_before hheld))
  · exact hkept.observations ▸ h.weights
  · exact hkept.priorStd ▸ h.priorStd

theorem step_window (h : Inv l) (fee revenueRate hours : ℝ) (timeBucket : String)
    (congested : Bool) (now : ℤ) :
    Inv (l.step (.window fee revenueRate hours timeBucket congested now)) := by
  by_cases hfee : fee < 0
  · -- a negative fee is not taken in at all
    refine step_kept h ?_ (if_pos hfee)
    rw [Op.apply, updatePosterior, updatePosteriorAtTimes, if_pos]
    · exact ⟨rfl, id, rfl, rfl, rfl, rfl, rfl, id, fun _ _ _ hm => hm⟩
    · exact .inr (by norm_num; exact hfee)
  · refine step_taken now h (takeWindow_taken h.streak (not_lt.mp hfee)) ?_
    change updatePosterior l.state fee revenueRate hours timeBucket congested now = _
    rw [updatePosterior, updatePosteriorAtTimes, if_neg]
    norm_num
    exact not_lt.mp hfee

theorem step_discount (h : Inv l) (gamma : ℝ) : Inv (l.step (.discount gamma)) := by
  have hs := h.sound
  obtain ⟨hsame, hmean, hnoise⟩ := discount_kept l.state gamma
  have hobs : (applyDtsDiscount l.state gamma).observations.length = l.state.observations.length :=
    (discount_weights h.weights gamma).length_eq.symm
  refine ⟨⟨hobs ▸ hs.observations, ?_, hsame.zeroRevenueStreak.trans hs.streak,
    hsame.zeroRunStartFee.trans hs.runFee, hsame.zeroRunStartTs.trans hs.runTs, ?_,
    hnoise ▸ hs.noise, ?_⟩, ?_, hsame.priorStdFee ▸ h.priorStd, l.current _⟩
  · exact hsame.posteriorBias ▸ hs.nudges
  · exact (le_min hs.std (by norm_num)).trans (discount_std hs.std gamma)
  · intro lo hi hheld
    exact hmean ▸ hs.mean lo hi (Learner.held_before hheld)
  · rcases discount_cases l.state gamma with hkept | ⟨hg0, -, hmap⟩
    · intro o ho
      change o ∈ (applyDtsDiscount l.state gamma).observations at ho
      rw [hkept] at ho
      exact h.weights o ho
    · intro o ho
      change o ∈ (applyDtsDiscount l.state gamma).observations at ho
      rw [hmap] at ho
      obtain ⟨o', ho', rfl⟩ := List.mem_map.mp ho
      exact discountedWeight_pos (h.weights o' ho') hg0

theorem step_inv (h : Inv l) (op : Op) : Inv (l.step op) := by
  cases op with
  | window fee revenueRate hours timeBucket congested now =>
    exact step_window h fee revenueRate hours timeBucket congested now
  | discount gamma => exact step_discount h gamma
  | nudge target weight now => exact step_kept h (record_kept _ _ _ _) rfl
  | vegas multiplier newFloor now => exact step_kept h (vegas_kept _ _ _ _) rfl

theorem fresh_inv : Inv .fresh := by
  refine ⟨⟨by decide, by decide, rfl, by norm_num [Learner.fresh, GaussianThompsonState.default],
    rfl, by norm_num [Learner.fresh, GaussianThompsonState.default],
    by norm_num [Learner.fresh, GaussianThompsonState.default], ?_⟩, ?_, ?_,
      List.mem_singleton.mpr rfl⟩
  · intro lo hi hheld
    have hprior := (hheld _ (List.mem_singleton.mpr rfl)).prior
    exact .of_between hprior.1 hprior.2
  · intro o ho
    cases ho
  · norm_num [Learner.fresh, GaussianThompsonState.default]

theorem run_inv (ops : List Op) : Inv (.run ops) := by
  have hfold (ops : List Op) (l : Learner) (h : Inv l) : Inv (ops.foldl Learner.step l) := by
    induction ops generalizing l with
    | nil => exact h
    | cons op ops ih => exact ih (l.step op) (step_inv h op)
  exact hfold ops .fresh fresh_inv

/-- After any run the learner is sound, and no discount takes its std under the smaller of that std
and 200, or gives an observation more weight. -/
theorem learner_stays_sound (ops : List Op) :
    Sound (.run ops) ∧
      (∀ gamma, min (Learner.run ops).state.posteriorStd 200 ≤
        (applyDtsDiscount (Learner.run ops).state gamma).posteriorStd) ∧
      ∀ gamma, List.Forall₂ (fun o o' : Observation ℝ => o'.weight ≤ o.weight)
        (Learner.run ops).state.observations
        (applyDtsDiscount (Learner.run ops).state gamma).observations := by
  have h := run_inv ops
  exact ⟨h.sound, discount_std h.sound.std, discount_weights h.weights⟩

theorem vegas_widens (hmean : 0 ≤ s.posteriorMean) (now : ℤ) :
    (applyVegasAdjustment s 2 0 now).posteriorStd = max 10 (s.posteriorStd * 2) ∧
      (applyVegasAdjustment s 2 0 now).posteriorMean = s.posteriorMean := by
  have hhigh : ¬(2 : ℝ) ≤ 1.2 := by norm_num
  have hboost : min (2 : ℝ) 2.0 = 2 := by norm_num
  rw [applyVegasAdjustment, if_neg hhigh, if_neg (not_lt.mpr hmean)]
  simp only [minStd_exact, max_exact, min_exact, hboost, and_self]

/-- Two floor spikes widen the std to 400; the discount cuts it to 200. -/
theorem discount_narrows_a_wide_std :
    ¬∀ (ops : List Op) (gamma : ℝ), 0 < gamma → gamma < 1 →
      (Learner.run ops).state.posteriorStd ≤
        (applyDtsDiscount (Learner.run ops).state gamma).posteriorStd := by
  intro hclaim
  have h := hclaim [.vegas 2 0 1, .vegas 2 0 2] (1 / 2) (by norm_num) (by norm_num)
  have hmean :
      (0 : ℝ) ≤ (GaussianThompsonState.default : GaussianThompsonState ℝ).posteriorMean := by
    norm_num [GaussianThompsonState.default]
  obtain ⟨hstd1, hmean1⟩ := vegas_widens hmean 1
  obtain ⟨hstd2, -⟩ := vegas_widens (hmean1 ▸ hmean) 2
  have hwide : (Learner.run [.vegas 2 0 1, .vegas 2 0 2]).state.posteriorStd = 400 := by
    change (applyVegasAdjustment (applyVegasAdjustment .default 2 0 1) 2 0 2).posteriorStd = 400
    rw [hstd2, hstd1]
    norm_num [GaussianThompsonState.default]
  have hcut : (applyDtsDiscount (Learner.run [.vegas 2 0 1, .vegas 2 0 2]).state
      (1 / 2)).posteriorStd = 200 := by
    have hsqrt : Real.sqrt 40000 = 200 := by
      rw [show (40000 : ℝ) = 200 ^ 2 by norm_num]
      exact Real.sqrt_sq (by norm_num)
    rw [applyDtsDiscount, if_neg (by norm_num)]
    simp only [hwide, sqrt_real, max_exact, powf_real, minPrecision]
    rw [show (2.0 : ℝ) = ((2 : ℕ) : ℝ) by norm_num, Real.rpow_natCast, ← hsqrt]
    norm_num
  rw [hwide, hcut] at h
  norm_num at h

end Runs

end

end Thompson
