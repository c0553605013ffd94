import RevenueOps.Binary64Order
import RevenueOps.LearnedStateCodec
import RevenueOps.ThompsonDynamics

/-! The calls on a learned state as the code runs them, with overflow checks: a difference of times
that leaves i64, a count past its end or masses that do not compare end the thread, and the call has
no result. Everywhere else the result is the one without the checks. -/
namespace Thompson

open Arithmetic Binary64 RustNumber

section Masses

def agesFit (now : ℤ) (tss : List ℤ) : Prop := ∀ ts ∈ tss, InI64 (now - ts)

instance (now : ℤ) (tss : List ℤ) : Decidable (agesFit now tss) :=
  inferInstanceAs (Decidable (∀ ts ∈ tss, InI64 (now - ts)))

def earns (o : Observation Float) : Bool :=
  !decide (o.revenueRate ≤ 0.0) && !decide (o.flag = some congestionObsFlag)

/-- partial_cmp has no answer for a NaN. -/
def comparable (masses : List (FeeMass Float)) : Prop :=
  masses.length < 4 ∨ ∀ m ∈ masses, m.mass ≤ m.mass

instance (masses : List (FeeMass Float)) : Decidable (comparable masses) :=
  inferInstanceAs (Decidable (_ ∨ ∀ m ∈ masses, m.mass ≤ m.mass))

def supportedCeilingMassQuantile : Float := 0.90
def supportedCeilingHeadroom : Float := 1.25
def supportedCeilingFloorEscape : Float := 2.0

def quantileFee (threshold : Float) : List (FeeMass Float) → Float → Float → Float
  | [], _, last => last
  | m :: rest, acc, last =>
    if threshold ≤ acc + m.mass then m.fee else quantileFee threshold rest (acc + m.mass) last

def ceilingOf (quantile : Float) (floorPpm : Option Float) : Float :=
  let ceiling := quantile * supportedCeilingHeadroom
  match floorPpm with
  | some floor =>
    if 0.0 < floor ∧ quantile ≤ floor then
      RustFloat.maxF64 ceiling (floor * supportedCeilingFloorEscape)
    else ceiling
  | none => ceiling

/-- The last fee of the sorted masses is looked up, which an empty list has not. -/
def ceilingOfMasses (masses : List (FeeMass Float)) (floorPpm : Option Float) :
    Option (Option Float) :=
  let total := pySum (masses.map FeeMass.mass)
  if total ≤ 0.0 then some none
  else
    let sorted := masses.mergeSort fun a b =>
      decide (RustFloat.totalKey a.fee ≤ RustFloat.totalKey b.fee)
    sorted.getLast?.map fun last =>
      some (ceilingOf
        (quantileFee (total * supportedCeilingMassQuantile) sorted 0.0 last.fee) floorPpm)

theorem pySum_nil : (pySum [] : Float) ≤ 0.0 := by decide

theorem exists_ceiling (masses : List (FeeMass Float)) (floorPpm : Option Float) :
    ∃ ceiling, ceilingOfMasses masses floorPpm = some ceiling := by
  rw [ceilingOfMasses]
  split
  · exact ⟨none, rfl⟩
  · rename_i htotal
    -- an empty list has no mass
    have hne : masses.mergeSort (fun a b =>
        decide (RustFloat.totalKey a.fee ≤ RustFloat.totalKey b.fee)) ≠ [] := by
      intro hnil
      have hlength := (List.mergeSort_perm masses fun a b =>
        decide (RustFloat.totalKey a.fee ≤ RustFloat.totalKey b.fee)).length_eq
      rw [hnil] at hlength
      obtain rfl := List.length_eq_zero_iff.mp hlength.symm
      exact htotal pySum_nil
    obtain ⟨last, hlast⟩ := Option.isSome_iff_exists.mp (List.getLast?_isSome.mpr hne)
    simp only [hlast, Option.map_some]
    exact ⟨_, rfl⟩

variable [F64Functions Float]

def checkedMass (s : GaussianThompsonState Float) (now : ℤ) : Option (List (FeeMass Float)) := do
  guard (agesFit now ((s.observations.filter earns).map Observation.ts))
  guard (comparable (s.observations.filterMap (earningMass now)))
  pure (positiveRevenueMass s now)

theorem earningMass_comparable {now : ℤ} {obs : List (Observation Float)} {m : FeeMass Float}
    (h : m ∈ obs.filterMap (earningMass now)) : m.mass ≤ m.mass := by
  obtain ⟨o, -, ho⟩ := List.mem_filterMap.mp h
  simp only [earningMass] at ho
  split at ho
  · cases ho
  · split at ho
    · cases ho
    · split at ho
      · rename_i hweight
        cases ho
        exact le_self_of_isNaN (Bool.eq_false_iff.mpr fun hnan => not_lt_of_isNaN hnan hweight)
      · cases ho

/-- Masses above the least weight compare, so only the ages can end the thread. -/
theorem computes_checkedMass (s : GaussianThompsonState Float) (now : ℤ) :
    Computes (checkedMass s now) (agesFit now ((s.observations.filter earns).map Observation.ts))
      (positiveRevenueMass s now) := by
  have hcomparable : comparable (s.observations.filterMap (earningMass now)) :=
    .inr fun m hm => earningMass_comparable hm
  refine ((computes_guard _).bind ((computes_guard _).bind
    (computes_pure (positiveRevenueMass s now)))).congr ?_
  simp only [hcomparable, and_true]

def supportedFeeCeiling (s : GaussianThompsonState Float) (now : ℤ) (floorPpm : Option Float) :
    Option (Option Float) := do
  let masses ← checkedMass s now
  ceilingOfMasses masses floorPpm

theorem computes_supportedFeeCeiling (s : GaussianThompsonState Float) (now : ℤ)
    (floorPpm : Option Float) : ∃ ceiling, Computes (supportedFeeCeiling s now floorPpm)
      (agesFit now ((s.observations.filter earns).map Observation.ts)) ceiling := by
  obtain ⟨ceiling, hceiling⟩ := exists_ceiling (positiveRevenueMass s now) floorPpm
  have hlater : Computes (ceilingOfMasses (positiveRevenueMass s now) floorPpm) True ceiling := by
    rw [hceiling]
    exact computes_pure ceiling
  exact ⟨ceiling, ((computes_checkedMass s now).bind hlater).congr (iff_of_eq (and_true _))⟩

end Masses

section Rebuild

theorem agesFit_earning {now : ℤ} {obs : List (Observation Float)}
    (h : agesFit now (obs.map Observation.ts)) :
    agesFit now ((obs.filter earns).map Observation.ts) := by
  intro ts hts
  obtain ⟨o, ho, rfl⟩ := List.mem_map.mp hts
  exact h _ (List.mem_map_of_mem (List.mem_of_mem_filter ho))

variable [F64Functions Float]

def anchored (s : GaussianThompsonState Float) (now : ℤ) : Bool :=
  decide (0.0 < pySum ((anchorPool s now).map AnchorObs.weight)) &&
    (decide (pySum ((weightedObs s now).map fun o => o.revenue * o.weight) ≤ 1e-9) ||
      streakOverride s)

def checkedRebuild (s : GaussianThompsonState Float) (now : ℤ) :
    Option (GaussianThompsonState Float) := do
  guard (agesFit now (s.observations.map Observation.ts))
  whenNeeded (anchored s now) (checkedMass s now)
  guard (agesFit now (s.posteriorBias.map Nudge.ts))
  pure (recomputePosteriorAtTimes s now now)

/-- The rebuild needs the ages of all windows and nudges; the masses need no others. -/
theorem computes_checkedRebuild (s : GaussianThompsonState Float) (now : ℤ) :
    Computes (checkedRebuild s now)
      (agesFit now (s.observations.map Observation.ts) ∧ agesFit now (s.posteriorBias.map Nudge.ts))
      (recomputePosteriorAtTimes s now now) := by
  have h : Computes (checkedRebuild s now) (agesFit now (s.observations.map Observation.ts) ∧
      (anchored s now = true → agesFit now ((s.observations.filter earns).map Observation.ts)) ∧
      agesFit now (s.posteriorBias.map Nudge.ts) ∧ True) (recomputePosteriorAtTimes s now now) :=
    (computes_guard _).bind ((computes_whenNeeded _ (computes_checkedMass s now)).bind
      ((computes_guard _).bind (computes_pure _)))
  refine h.congr ⟨fun hfits => ⟨hfits.1, hfits.2.2.1⟩, fun hfits => ?_⟩
  exact ⟨hfits.1, fun _ => agesFit_earning hfits.1, hfits.2, trivial⟩

end Rebuild

section Update

variable [F64Functions Float]

def refFits (s : GaussianThompsonState Float) (now : ℤ) : Prop :=
  s.positiveRateRef ≤ 0.0 ∨ s.positiveRateRefTs ≤ 0 ∨ InI64 (now - s.positiveRateRefTs)

instance (s : GaussianThompsonState Float) (now : ℤ) : Decidable (refFits s now) :=
  inferInstanceAs (Decidable (_ ∨ _ ∨ _))

/-- A window that earns measures the gap since the last one; the others are counted. -/
def countFits (s : GaussianThompsonState Float) (meaningful : Bool) (now : ℤ) : Prop :=
  (meaningful = true → 0 < s.lastMeaningfulTs → s.lastMeaningfulTs < now →
      InI64 (now - s.lastMeaningfulTs)) ∧
    (meaningful = false → InI64 (s.zeroRevenueStreak + 1))

instance (s : GaussianThompsonState Float) (meaningful : Bool) (now : ℤ) :
    Decidable (countFits s meaningful now) :=
  inferInstanceAs (Decidable (_ ∧ _))

def grown (s : GaussianThompsonState Float) (fee revenueRate hours : Float) (timeBucket : String)
    (congested : Bool) (now : ℤ) : GaussianThompsonState Float :=
  let rate := guardedRate revenueRate
  let counted := if isMeaningfulRate s rate now then earned s rate now else silent s fee now
  { counted with
    observations := counted.observations ++
      [windowObservation fee rate
        (F64.min 1.0 (guardedHours hours / 6.0)) now timeBucket congested] }

def probes (s : GaussianThompsonState Float) (meaningful : Bool) : Bool :=
  !meaningful && decide (zeroRevenueStreakThreshold ≤ s.zeroRevenueStreak) &&
    decide (0.0 < s.zeroRunStartFee)

def checkedWindow (s : GaussianThompsonState Float) (fee revenueRate hours : Float)
    (timeBucket : String) (congested : Bool) (now : ℤ) : Option (GaussianThompsonState Float) := do
  let meaningful := isMeaningfulRate s (guardedRate revenueRate) now
  let t := grown s fee revenueRate hours timeBucket congested now
  guard (refFits s now)
  guard (countFits s meaningful now)
  whenNeeded (probes t meaningful) (checkedMass t now)
  checkedRebuild (takeWindow s fee revenueRate hours timeBucket congested now) now

def checkedUpdate (s : GaussianThompsonState Float) (fee revenueRate hours : Float)
    (timeBucket : String) (congested : Bool) (now : ℤ) : Option (GaussianThompsonState Float) :=
  if !F64.isFinite fee ∨ fee < 0.0 then some s
  else checkedWindow s fee revenueRate hours timeBucket congested now

structure UpdateFits (s : GaussianThompsonState Float) (fee revenueRate hours : Float)
    (timeBucket : String) (congested : Bool) (now : ℤ) : Prop where
  ref : refFits s now
  count : countFits s (isMeaningfulRate s (guardedRate revenueRate) now) now
  probe : probes (grown s fee revenueRate hours timeBucket congested now)
      (isMeaningfulRate s (guardedRate revenueRate) now) = true →
    agesFit now (((grown s fee revenueRate hours timeBucket congested now).observations.filter
      earns).map Observation.ts)
  observed : agesFit now
    ((takeWindow s fee revenueRate hours timeBucket congested now).observations.map Observation.ts)
  nudged : agesFit now
    ((takeWindow s fee revenueRate hours timeBucket congested now).posteriorBias.map Nudge.ts)

theorem computes_checkedWindow (s : GaussianThompsonState Float) (fee revenueRate hours : Float)
    (timeBucket : String) (congested : Bool) (now : ℤ) :
    Computes (checkedWindow s fee revenueRate hours timeBucket congested now)
      (UpdateFits s fee revenueRate hours timeBucket congested now)
      (recomputePosteriorAtTimes (takeWindow s fee revenueRate hours timeBucket congested now)
        now now) := by
  rw [checkedWindow]
  refine Computes.congr ((computes_guard _).bind ((computes_guard _).bind ((computes_whenNeeded _
    (computes_checkedMass _ now)).bind (computes_checkedRebuild _ now)))) ⟨?_, ?_⟩
  · rintro ⟨href, hcount, hprobe, hobserved, hnudged⟩
    exact ⟨href, hcount, hprobe, hobserved, hnudged⟩
  · rintro ⟨href, hcount, hprobe, hobserved, hnudged⟩
    exact ⟨href, hcount, hprobe, hobserved, hnudged⟩

end Update

section Frames

/-- What the checks read of a state is carried over, but for nudges that are gone. -/
structure Carries (s t : GaussianThompsonState Float) : Prop where
  observations : t.observations = s.observations
  streak : t.zeroRevenueStreak = s.zeroRevenueStreak
  refTs : t.positiveRateRefTs = s.positiveRateRefTs
  meaningfulTs : t.lastMeaningfulTs = s.lastMeaningfulTs
  bias : ∀ n ∈ t.posteriorBias, n ∈ s.posteriorBias

variable {s : GaussianThompsonState Float}

theorem carries_refl (s : GaussianThompsonState Float) : Carries s s :=
  ⟨rfl, rfl, rfl, rfl, fun _ h => h⟩

theorem Carries.trans {a b c : GaussianThompsonState Float} (hab : Carries a b)
    (hbc : Carries b c) :
    Carries a c :=
  ⟨hbc.observations.trans hab.observations, hbc.streak.trans hab.streak, hbc.refTs.trans hab.refTs,
    hbc.meaningfulTs.trans hab.meaningfulTs, fun n hn => hab.bias n (hbc.bias n hn)⟩

theorem blend_carries (s : GaussianThompsonState Float) (target weight : Float) :
    Carries s (blendPosteriorToward s target weight) := by
  rw [blendPosteriorToward]
  split
  · exact carries_refl s
  · exact ⟨rfl, rfl, rfl, rfl, fun _ h => h⟩

theorem probe_observed {probe : Option ℤ} {weight : Float} {now : ℤ} {timeBucket : String}
    {o : Observation Float} (h : o ∈ probeObservations probe weight now timeBucket) :
    o.ts = now := by
  cases probe with
  | some p =>
    rw [List.mem_singleton.mp h]
    rfl
  | none => exact absurd h List.not_mem_nil

theorem track_carries (s : GaussianThompsonState Float) (wobs : List (WeightedObs Float)) :
    Carries s (trackChargedFee s wobs) := by
  rw [trackChargedFee]
  split
  · exact ⟨rfl, rfl, rfl, rfl, fun _ h => h⟩
  · exact carries_refl s

variable [F64Functions Float]

theorem normal_carries (s : GaussianThompsonState Float) (wobs : List (WeightedObs Float)) :
    Carries s (normalPosterior s wobs) := by
  rw [normalPosterior]
  split <;> exact ⟨rfl, rfl, rfl, rfl, fun _ h => h⟩

theorem legacy_carries (s : GaussianThompsonState Float)
    (wobs : List (WeightedObs Float)) (now : ℤ) :
    Carries s (recomputePosteriorLegacy s (some wobs) now) := by
  have htags : Carries s (floatTags s) := ⟨rfl, rfl, rfl, rfl, fun _ h => h⟩
  exact htags.trans (normal_carries (floatTags s) wobs)

theorem fit_carries (s : GaussianThompsonState Float) (wobs : List (WeightedObs Float)) (now : ℤ) :
    Carries s (fitPosterior s wobs now) := by
  simp only [fitPosterior]
  split
  · exact legacy_carries s wobs now
  · split
    · exact legacy_carries s wobs now
    · split
      · exact legacy_carries s wobs now
      · exact ⟨rfl, rfl, rfl, rfl, fun _ h => h⟩

theorem core_carries (s : GaussianThompsonState Float) (now : ℤ) :
    Carries s (recomputePosteriorCore s now) := by
  simp only [recomputePosteriorCore]
  have htags : Carries s (floatTags s) := ⟨rfl, rfl, rfl, rfl, fun _ h => h⟩
  split
  · exact ⟨rfl, rfl, rfl, rfl, fun _ h => h⟩
  · refine htags.trans ((track_carries _ (weightedObs (floatTags s) now)).trans ?_)
    split
    · exact ⟨rfl, rfl, rfl, rfl, fun _ h => h⟩
    · exact fit_carries _ _ now

theorem replay_carries (now : ℤ) (bias : List (Nudge Float)) {t : GaussianThompsonState Float}
    {kept : List (Nudge Float)} (ht : Carries s t) (hkept : ∀ n ∈ kept, n ∈ s.posteriorBias)
    (hbias : ∀ n ∈ bias, n ∈ s.posteriorBias) :
    Carries s (bias.foldl (replayNudge now) (t, kept)).1 ∧
      ∀ n ∈ (bias.foldl (replayNudge now) (t, kept)).2, n ∈ s.posteriorBias := by
  induction bias generalizing t kept with
  | nil => exact ⟨ht, hkept⟩
  | cons n bias ih =>
    have hrest : ∀ m ∈ bias, m ∈ s.posteriorBias := fun m hm => hbias m (List.mem_cons_of_mem _ hm)
    rw [List.foldl_cons, replayNudge]
    dsimp only
    split
    · exact ih ht hkept hrest
    · refine ih (ht.trans (blend_carries _ _ _)) (fun m hm => ?_) hrest
      rcases List.mem_append.mp hm with hm | hm
      · exact hkept m hm
      · rw [List.mem_singleton.mp hm]
        exact hbias n List.mem_cons_self

theorem recompute_carries (s : GaussianThompsonState Float) (now biasNow : ℤ) :
    Carries s (recomputePosteriorAtTimes s now biasNow) := by
  refine (core_carries s now).trans ?_
  rw [recomputePosteriorAtTimes, applyPosteriorBias]
  split
  · exact carries_refl _
  · obtain ⟨hcarries, hkept⟩ := replay_carries (s := recomputePosteriorCore s now) biasNow
      (recomputePosteriorCore s now).posteriorBias (carries_refl _)
      (fun _ h => absurd h List.not_mem_nil) fun _ h => h
    exact ⟨hcarries.observations, hcarries.streak, hcarries.refTs, hcarries.meaningfulTs, hkept⟩

theorem grown_observed (s : GaussianThompsonState Float) (fee revenueRate hours : Float)
    (timeBucket : String) (congested : Bool) (now : ℤ) {o : Observation Float}
    (h : o ∈ (grown s fee revenueRate hours timeBucket congested now).observations) :
    o ∈ s.observations ∨ o.ts = now := by
  have hcounted : (if isMeaningfulRate s (guardedRate revenueRate) now then
      earned s (guardedRate revenueRate) now else silent s fee now).observations =
        s.observations := by
    split <;> rfl
  rcases List.mem_append.mp h with hmem | hmem
  · left
    rwa [hcounted] at hmem
  · right
    rw [List.mem_singleton.mp hmem, windowObservation]
    split <;> rfl

/-- The window is taken in, a probe may follow it, and only the last windows stay. -/
theorem takeWindow_eq (s : GaussianThompsonState Float) (fee revenueRate hours : Float)
    (timeBucket : String) (congested : Bool) (now : ℤ) :
    ∃ probe, takeWindow s fee revenueRate hours timeBucket congested now =
      { grown s fee revenueRate hours timeBucket congested now with
        observations := pruneObservations
          ((grown s fee revenueRate hours timeBucket congested now).observations ++
            probeObservations probe (F64.min 1.0 (guardedHours hours / 6.0)) now timeBucket) } :=
  ⟨_, rfl⟩

/-- The windows after an update are some of the old ones and those of the moment. -/
theorem takeWindow_observed (s : GaussianThompsonState Float) (fee revenueRate hours : Float)
    (timeBucket : String) (congested : Bool) (now : ℤ) {o : Observation Float}
    (h : o ∈ (takeWindow s fee revenueRate hours timeBucket congested now).observations) :
    o ∈ s.observations ∨ o.ts = now := by
  obtain ⟨probe, heq⟩ := takeWindow_eq s fee revenueRate hours timeBucket congested now
  rw [heq] at h
  simp only [pruneObservations] at h
  rcases List.mem_append.mp (List.mem_of_mem_drop h) with hmem | hmem
  · exact grown_observed s fee revenueRate hours timeBucket congested now hmem
  · exact .inr (probe_observed hmem)

/-- A window moves the times of reference to the moment, or counts one more. -/
theorem takeWindow_counts (s : GaussianThompsonState Float) (fee revenueRate hours : Float)
    (timeBucket : String) (congested : Bool) (now : ℤ) {t : GaussianThompsonState Float}
    (ht : t = takeWindow s fee revenueRate hours timeBucket congested now) :
    t.posteriorBias = s.posteriorBias ∧
      (isMeaningfulRate s (guardedRate revenueRate) now = true ∧ t.zeroRevenueStreak = 0 ∧
          t.positiveRateRefTs = now ∧ t.lastMeaningfulTs = now ∨
        isMeaningfulRate s (guardedRate revenueRate) now = false ∧
          t.zeroRevenueStreak = s.zeroRevenueStreak + 1 ∧
          t.positiveRateRefTs = s.positiveRateRefTs ∧ t.lastMeaningfulTs = s.lastMeaningfulTs) := by
  subst ht
  cases hmeaningful : isMeaningfulRate s (guardedRate revenueRate) now with
  | true =>
    refine ⟨?_, .inl ⟨rfl, ?_, ?_, ?_⟩⟩ <;>
      · simp only [takeWindow, hmeaningful, if_true]
        rfl
  | false =>
    refine ⟨?_, .inr ⟨rfl, ?_, ?_, ?_⟩⟩ <;>
      · simp only [takeWindow, hmeaningful]
        rfl

theorem discount_observed (s : GaussianThompsonState Float) (gamma : Float) {o : Observation Float}
    (h : o ∈ (applyDtsDiscount s gamma).observations) : ∃ p ∈ s.observations, o.ts = p.ts := by
  rw [applyDtsDiscount] at h
  split at h
  · exact ⟨o, h, rfl⟩
  · obtain ⟨p, hp, rfl⟩ := List.mem_map.mp h
    exact ⟨p, hp, rfl⟩

theorem discount_counts (s : GaussianThompsonState Float) (gamma : Float)
    {t : GaussianThompsonState Float} (ht : t = applyDtsDiscount s gamma) :
    t.posteriorBias = s.posteriorBias ∧ t.zeroRevenueStreak = s.zeroRevenueStreak ∧
      t.positiveRateRefTs = s.positiveRateRefTs ∧ t.lastMeaningfulTs = s.lastMeaningfulTs := by
  subst ht
  rw [applyDtsDiscount]
  split <;> exact ⟨rfl, rfl, rfl, rfl⟩

end Frames

section Nudging

theorem refreshNudge_dated {target weight : Float} {now : ℤ} {bias out : List (Nudge Float)}
    (h : refreshNudge target weight now bias = some out) {n : Nudge Float} (hn : n ∈ out) :
    n ∈ bias ∨ n.ts = now := by
  induction bias generalizing out with
  | nil => cases h
  | cons m rest ih =>
    rw [refreshNudge] at h
    split at h
    · cases h
      rcases List.mem_cons.mp hn with rfl | hn
      · exact .inr rfl
      · exact .inl (List.mem_cons_of_mem _ hn)
    · obtain ⟨out', hout', rfl⟩ := Option.map_eq_some_iff.mp h
      rcases List.mem_cons.mp hn with rfl | hn
      · exact .inl List.mem_cons_self
      · exact (ih hout' hn).imp_left (List.mem_cons_of_mem _)

/-- A nudge touches the bias and the mean; an entry of the bias is an old one or of the moment. -/
theorem nudge_counts (s : GaussianThompsonState Float) (target weight : Float) (now : ℤ)
    {t : GaussianThompsonState Float} (ht : t = recordPosteriorNudge s target weight now) :
    t.observations = s.observations ∧ t.zeroRevenueStreak = s.zeroRevenueStreak ∧
      t.positiveRateRefTs = s.positiveRateRefTs ∧ t.lastMeaningfulTs = s.lastMeaningfulTs ∧
      ∀ n ∈ t.posteriorBias, n ∈ s.posteriorBias ∨ n.ts = now := by
  subst ht
  rw [recordPosteriorNudge]
  split
  · exact ⟨rfl, rfl, rfl, rfl, fun _ h => .inl h⟩
  · split
    · exact ⟨rfl, rfl, rfl, rfl, fun _ h => .inl h⟩
    · split
      · rename_i bias hbias
        exact ⟨rfl, rfl, rfl, rfl, fun n hn => refreshNudge_dated hbias hn⟩
      · obtain ⟨hobs, hstreak, href, hmeaningful, hbias⟩ := blend_carries
          { s with posteriorBias := appendNudge s.posteriorBias ⟨target, weight, now⟩ }
            target weight
        refine ⟨hobs, hstreak, href, hmeaningful, fun n hn => ?_⟩
        rcases List.mem_append.mp (List.mem_of_mem_drop (hbias n hn)) with hn | hn
        · exact .inl hn
        · right
          rw [List.mem_singleton.mp hn]

end Nudging

end Thompson
