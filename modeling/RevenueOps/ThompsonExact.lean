import RevenueOps.RealArithmetic
import RevenueOps.ThompsonDynamics
import RevenueOps.WeightedMean
import Mathlib.Data.List.GetD
import Mathlib.Tactic.NormNum
import Mathlib.Tactic.Positivity

/-! The rebuild of the posterior over exact numbers: whatever branch it takes, the mean stays in
reach of the prior mean and of the fees that were observed, and the std over its floor. -/
namespace Thompson

open Arithmetic WeightedMean
open RustFloat (clampF64)

noncomputable section

section Sums

theorem pySum_exact (xs : List ℝ) : pySum xs = xs.sum := by
  have hfold (xs : List ℝ) (a : ℝ) :
      xs.foldl (fun (acc : ℝ × ℝ) (x : ℝ) => (acc.1 + x, acc.2 +
        (if |x| ≤ |acc.1| then (acc.1 - (acc.1 + x)) + x else (x - (acc.1 + x)) + acc.1)))
        (a, 0) = (a + xs.sum, 0) := by
    induction xs generalizing a with
    | nil => simp
    | cons x xs ih =>
      have hzero : (if |x| ≤ |a| then (a - (a + x)) + x else (x - (a + x)) + a) = 0 := by
        split <;> ring
      rw [List.foldl_cons, hzero, add_zero, ih, List.sum_cons, add_assoc]
  have hzero : ((0.0 : ℝ), (0.0 : ℝ)) = (0, 0) := by norm_num
  have h := hfold xs 0
  rw [zero_add, ← hzero] at h
  have h1 := congrArg Prod.fst h
  have h2 := congrArg Prod.snd h
  calc pySum xs = xs.sum + 0.0 := congrArg₂ (· + ·) h1 (h2.trans (by norm_num))
    _ = xs.sum := by norm_num

theorem minOf_mem {xs : List ℝ} (h : xs ≠ []) : minOf xs ∈ xs := by
  cases xs with
  | nil => exact absurd rfl h
  | cons x xs =>
    have hmem := foldl_min_mem (x :: xs) x
    rcases List.mem_cons.mp hmem with hx | hin
    · exact List.mem_cons.mpr (.inl hx)
    · exact hin

theorem maxOf_mem {xs : List ℝ} (h : xs ≠ []) : maxOf xs ∈ xs := by
  cases xs with
  | nil => exact absurd rfl h
  | cons x xs =>
    have hmem := foldl_max_mem (x :: xs) x
    rcases List.mem_cons.mp hmem with hx | hin
    · exact List.mem_cons.mpr (.inl hx)
    · exact hin

theorem minOf_le {xs : List ℝ} {x : ℝ} (h : x ∈ xs) : minOf xs ≤ x := (foldl_min_le xs _).2 x h

theorem le_maxOf {xs : List ℝ} {x : ℝ} (h : x ∈ xs) : x ≤ maxOf xs := (le_foldl_max xs _).2 x h

theorem minOf_le_maxOf {xs : List ℝ} (h : xs ≠ []) : minOf xs ≤ maxOf xs :=
  minOf_le (maxOf_mem h)

theorem halfLife_pos (hours period : ℝ) : 0 < halfLife hours period :=
  Real.rpow_pos_of_pos (by norm_num) _

end Sums

section Means

variable {lo hi : ℝ}

def Bounded (lo hi : ℝ) (masses : List (FeeMass ℝ)) : Prop :=
  ∀ m ∈ masses, 0 < m.mass ∧ lo ≤ m.fee ∧ m.fee ≤ hi

theorem meanFee_between {masses : List (FeeMass ℝ)} (h : Bounded lo hi masses)
    (hpos : 0 < pySum (masses.map FeeMass.mass)) : lo ≤ meanFee masses ∧ meanFee masses ≤ hi := by
  rw [meanFee, pySum_exact, pySum_exact]
  rw [pySum_exact] at hpos
  exact mean_between (fun m hm => (h m hm).1.le) hpos (fun m hm => (h m hm).2.1)
    fun m hm => (h m hm).2.2

end Means

section Masses

variable {lo hi : ℝ} {s : GaussianThompsonState ℝ} {now : ℤ}

def Observed (lo hi : ℝ) (obs : List (Observation ℝ)) : Prop :=
  ∀ o ∈ obs, 0 < o.weight ∧ lo ≤ o.fee ∧ o.fee ≤ hi

theorem earningMass_bounded {obs : List (Observation ℝ)} (h : Observed lo hi obs) :
    Bounded lo hi (obs.filterMap (earningMass now)) := by
  intro m hm
  obtain ⟨o, ho, hmass⟩ := List.mem_filterMap.mp hm
  simp only [earningMass] at hmass
  split at hmass
  · cases hmass
  · split at hmass
    · cases hmass
    · split at hmass
      · rename_i hlight
        cases hmass
        refine ⟨lt_trans ?_ hlight, (h o ho).2⟩
        norm_num [supportedCeilingMinWeight]
      · cases hmass

theorem getD_mem {xs : List ℝ} {n : ℕ} (h : n < xs.length) (d : ℝ) : xs.getD n d ∈ xs := by
  rw [List.getD_eq_getElem _ _ h]
  exact List.getElem_mem h

theorem winsorize_bounded {masses : List (FeeMass ℝ)} (h : Bounded lo hi masses) :
    Bounded lo hi (winsorize masses) := by
  rw [winsorize]
  split
  · rename_i hmany
    set sorted := (masses.map FeeMass.mass).mergeSort fun a b => decide (a ≤ b) with hsorted
    have hlen : sorted.length = masses.length := by
      rw [hsorted, List.length_mergeSort, List.length_map]
    have hmedian : sorted.getD (sorted.length / 2) 0.0 ∈ masses.map FeeMass.mass := by
      have hmiddle : sorted.length / 2 < sorted.length := by omega
      have hin := getD_mem hmiddle 0.0
      rw [hsorted] at hin
      exact List.mem_mergeSort.mp hin
    obtain ⟨w, hw, hmass⟩ := List.mem_map.mp hmedian
    have hcap : 0 < 3.0 * sorted.getD (sorted.length / 2) 0.0 := by
      rw [← hmass]
      exact mul_pos (by norm_num) (h w hw).1
    intro m hm
    obtain ⟨m', hm', rfl⟩ := List.mem_map.mp hm
    exact ⟨lt_min (h m' hm').1 hcap, (h m' hm').2⟩
  · exact h

theorem positiveRevenueMass_bounded (h : Observed lo hi s.observations) :
    Bounded lo hi (positiveRevenueMass s now) :=
  winsorize_bounded (earningMass_bounded h)

theorem earningRegionFee_between (h : Observed lo hi s.observations) {fee : ℝ}
    (hfee : earningRegionFee s now = some fee) : lo ≤ fee ∧ fee ≤ hi := by
  rw [earningRegionFee] at hfee
  split at hfee
  · cases hfee
  · rename_i hmass
    cases hfee
    norm_num at hmass
    exact meanFee_between (positiveRevenueMass_bounded h) hmass

end Masses

section Weighted

variable {lo hi : ℝ} {s : GaussianThompsonState ℝ} {now : ℤ} {wobs : List (WeightedObs ℝ)}

def Weighed (lo hi : ℝ) (wobs : List (WeightedObs ℝ)) : Prop :=
  ∀ o ∈ wobs, 0 < o.weight ∧ lo ≤ o.fee ∧ o.fee ≤ hi

theorem livingObs_mem {p : Observation ℝ × ℝ} (hp : p ∈ livingObs s now) :
    p.1 ∈ s.observations ∧ 0 < p.2 := by
  obtain ⟨hmem, hheavy⟩ := List.mem_filter.mp hp
  obtain ⟨o, ho, rfl⟩ := List.mem_map.mp hmem
  norm_num at hheavy
  exact ⟨ho, lt_of_lt_of_le (by norm_num) hheavy⟩

theorem weightedObs_weighed (h : Observed lo hi s.observations) :
    Weighed lo hi (weightedObs s now) := by
  intro w hw
  obtain ⟨p, hp, rfl⟩ := List.mem_map.mp hw
  obtain ⟨hobs, hpos⟩ := livingObs_mem (List.mem_of_mem_filter hp)
  exact ⟨hpos, (h p.1 hobs).2⟩

theorem Weighed.bounded (h : Weighed lo hi wobs) :
    Bounded lo hi (wobs.map WeightedObs.feeMass) := by
  intro m hm
  obtain ⟨o, ho, rfl⟩ := List.mem_map.mp hm
  exact h o ho

theorem Weighed.fees (h : Weighed lo hi wobs) {fee : ℝ} (hfee : fee ∈ wobs.map WeightedObs.fee) :
    lo ≤ fee ∧ fee ≤ hi := by
  obtain ⟨o, ho, rfl⟩ := List.mem_map.mp hfee
  exact (h o ho).2

theorem recencyPairs_bounded (h : Observed lo hi s.observations) (t : GaussianThompsonState ℝ) :
    Bounded lo hi (recencyPairs t now (anchorPool s now)) := by
  have hall (a : AnchorObs ℝ) (ha : a ∈ (anchorPool s now).map (AnchorObs.faded now)) :
      0 < a.weight ∧ lo ≤ a.fee ∧ a.fee ≤ hi := by
    obtain ⟨b, hb, rfl⟩ := List.mem_map.mp ha
    obtain ⟨p, hp, rfl⟩ := List.mem_map.mp hb
    obtain ⟨hobs, hpos⟩ := livingObs_mem hp
    exact ⟨mul_pos hpos (halfLife_pos _ _), (h p.1 hobs).2⟩
  intro m hm
  obtain ⟨a, ha, rfl⟩ := List.mem_map.mp hm
  split at ha
  · split at ha
    · exact hall a ha
    · exact hall a (List.mem_of_mem_filter ha)
  · exact hall a ha

end Weighted

section Normal

variable {lo hi : ℝ} {s : GaussianThompsonState ℝ} {now : ℤ} {wobs : List (WeightedObs ℝ)}

theorem normalPosterior_between (h : Weighed lo hi wobs) (hlo : lo ≤ s.priorMeanFee)
    (hhi : s.priorMeanFee ≤ hi) :
    lo ≤ (normalPosterior s wobs).posteriorMean ∧ (normalPosterior s wobs).posteriorMean ≤ hi := by
  rw [normalPosterior]
  split
  · rename_i hheavy
    have htotal : 0 < pySum (wobs.map WeightedObs.weight) := lt_trans (by norm_num) hheavy
    have hmean : lo ≤ meanFee (wobs.map WeightedObs.feeMass) ∧
        meanFee (wobs.map WeightedObs.feeMass) ≤ hi := by
      refine meanFee_between h.bounded ?_
      simpa [List.map_map, Function.comp_def, WeightedObs.feeMass] using htotal
    simp only [meanFee, List.map_map, Function.comp_def, WeightedObs.feeMass] at hmean
    have hprior : (0 : ℝ) < 1.0 / F64.max (minStd * minStd)
        (F64Functions.powf s.priorStdFee 2.0) := by
      refine div_pos (by norm_num) (lt_of_lt_of_le ?_ (le_max_left _ _))
      norm_num [minStd]
    have hvariance (x : ℝ) : 0 < F64.max x (minStd * minStd) :=
      lt_of_lt_of_le (by norm_num [minStd]) (le_max_right _ _)
    have hdata := div_pos htotal (hvariance (F64.max
      (pySum (wobs.map fun o => o.fee * o.fee * o.weight) / pySum (wobs.map WeightedObs.weight) -
        F64Functions.powf (pySum (wobs.map fun o => o.fee * o.weight) /
          pySum (wobs.map WeightedObs.weight)) 2.0) 0.0))
    have hsum := add_pos hprior hdata
    constructor
    · refine (le_div_iff₀ hsum).mpr ?_
      have h1 := mul_le_mul_of_nonneg_left hlo hprior.le
      have h2 := mul_le_mul_of_nonneg_left hmean.1 hdata.le
      linarith
    · refine (div_le_iff₀ hsum).mpr ?_
      have h1 := mul_le_mul_of_nonneg_left hhi hprior.le
      have h2 := mul_le_mul_of_nonneg_left hmean.2 hdata.le
      linarith
  · exact ⟨hlo, hhi⟩

theorem minStd_exact : (minStd : ℝ) = 10 := by norm_num [minStd]

theorem normalPosterior_std (h : 10 ≤ s.priorStdFee) :
    10 ≤ (normalPosterior s wobs).posteriorStd := by
  rw [normalPosterior]
  split
  · rw [← minStd_exact]
    exact (le_max_left _ _).trans (le_max_left _ _)
  · exact h

end Normal

section Anchor

variable {lo hi : ℝ} {s t : GaussianThompsonState ℝ} {now : ℤ} {wobs : List (WeightedObs ℝ)}
  {mean std : ℝ}

/-- An anchor is a mean of fees that earned, or of the fees that were tried last. -/
theorem regimeAnchor_between (h : Observed lo hi s.observations)
    (ht : t.observations = s.observations)
    (hanchor : regimeAnchor t now wobs (anchorPool s now) = some (mean, std)) :
    (lo ≤ mean ∧ mean ≤ hi) ∧ 10 ≤ std := by
  have hstd (m : ℝ) (fees : List ℝ) : 10 ≤ anchorStd m fees := by
    rw [← minStd_exact]
    exact le_max_left _ _
  rw [regimeAnchor] at hanchor
  split at hanchor
  · split at hanchor
    · rename_i anchor hearning
      cases hanchor
      refine ⟨?_, hstd _ _⟩
      split at hearning
      · exact earningRegionFee_between (ht ▸ h) hearning
      · cases hearning
    · dsimp only at hanchor
      split at hanchor
      · rename_i hmass
        cases hanchor
        norm_num at hmass
        exact ⟨meanFee_between (recencyPairs_bounded h t) hmass, hstd _ _⟩
      · cases hanchor
  · cases hanchor

end Anchor

section Fit

variable {lo hi : ℝ} {s : GaussianThompsonState ℝ} {now : ℤ} {wobs : List (WeightedObs ℝ)}

theorem feeBuckets_mem {entries : List (WeightedObs ℝ)} (h : entries ∈ feeBuckets wobs) :
    ∀ o ∈ entries, o ∈ wobs := by
  obtain ⟨k, _, rfl⟩ := List.mem_map.mp h
  exact fun o ho => List.mem_of_mem_filter ho

/-- The best region is the mean of a bucket, or the least fee where no bucket has weight. -/
theorem bestRegion_between (h : Weighed lo hi wobs) {feeMin : ℝ} (hlo : lo ≤ feeMin)
    (hhi : feeMin ≤ hi) : lo ≤ bestRegion feeMin wobs ∧ bestRegion feeMin wobs ≤ hi := by
  rw [bestRegion]
  refine List.foldlRecOn (motive := fun best : ℝ × Option ℝ => lo ≤ best.1 ∧ best.1 ≤ hi) _ _
    ⟨hlo, hhi⟩ fun best hbest entries hentries => ?_
  have hbucket : Weighed lo hi entries := fun o ho => h o (feeBuckets_mem hentries o ho)
  split
  · exact hbest
  · rename_i hweight
    have hpos : 0 < pySum ((entries.map WeightedObs.feeMass).map FeeMass.mass) := by
      norm_num at hweight
      simpa [List.map_map, Function.comp_def, WeightedObs.feeMass] using hweight
    have hmean := meanFee_between hbucket.bounded hpos
    split
    · split
      · exact hmean
      · exact hbest
    · exact hmean

theorem clampF64_between {x : ℝ} :
    -(1 / 2) ≤ clampF64 x (-0.5) 1.5 ∧ clampF64 x (-0.5) 1.5 ≤ 3 / 2 := by
  rw [clampF64]
  split
  · norm_num
  · split
    · norm_num
    · rename_i hlow hhigh
      norm_num at hlow hhigh
      exact ⟨by linarith, by linarith⟩

/-- The vertex of a concave fit lies half a range outside of the tried fees at most. -/
theorem fittedPosterior_stretched (h : Weighed lo hi wobs) (hne : wobs ≠ [])
    (mu : Mat3.V3 ℝ) (sigma : Mat3.M3 ℝ) :
    Stretched lo hi (fittedPosterior wobs (minOf (wobs.map WeightedObs.fee))
      (maxOf (wobs.map WeightedObs.fee) - minOf (wobs.map WeightedObs.fee)) mu sigma).1 ∧
    10 ≤ (fittedPosterior wobs (minOf (wobs.map WeightedObs.fee))
      (maxOf (wobs.map WeightedObs.fee) - minOf (wobs.map WeightedObs.fee)) mu sigma).2 := by
  have hfees : wobs.map WeightedObs.fee ≠ [] := fun hnil => hne (List.map_eq_nil_iff.mp hnil)
  have hmin := h.fees (minOf_mem hfees)
  have hmax := h.fees (maxOf_mem hfees)
  rw [fittedPosterior]
  split
  · refine ⟨Stretched.extrapolate hmin.1 (minOf_le_maxOf hfees) hmax.2 clampF64_between.1
      clampF64_between.2, ?_⟩
    rw [← minStd_exact]
    exact le_max_left _ _
  · have hbest := bestRegion_between h hmin.1 hmin.2
    refine ⟨Stretched.of_between hbest.1 hbest.2, ?_⟩
    rw [← minStd_exact]
    exact le_max_left _ _

end Fit

section Core

variable {lo hi : ℝ} {s : GaussianThompsonState ℝ} {now : ℤ} {wobs : List (WeightedObs ℝ)}

/-- The fields that a rebuild computes; everything else stays. -/
structure Rebuilt (s s' : GaussianThompsonState ℝ) : Prop where
  observations : s'.observations = s.observations
  posteriorBias : s'.posteriorBias = s.posteriorBias
  priorMeanFee : s'.priorMeanFee = s.priorMeanFee
  priorStdFee : s'.priorStdFee = s.priorStdFee
  zeroRevenueStreak : s'.zeroRevenueStreak = s.zeroRevenueStreak
  zeroRunStartFee : s'.zeroRunStartFee = s.zeroRunStartFee
  zeroRunStartTs : s'.zeroRunStartTs = s.zeroRunStartTs

theorem Rebuilt.refl (s : GaussianThompsonState ℝ) : Rebuilt s s :=
  ⟨rfl, rfl, rfl, rfl, rfl, rfl, rfl⟩

theorem Rebuilt.trans {a b c : GaussianThompsonState ℝ} (hab : Rebuilt a b) (hbc : Rebuilt b c) :
    Rebuilt a c :=
  ⟨hbc.observations.trans hab.observations, hbc.posteriorBias.trans hab.posteriorBias,
    hbc.priorMeanFee.trans hab.priorMeanFee, hbc.priorStdFee.trans hab.priorStdFee,
    hbc.zeroRevenueStreak.trans hab.zeroRevenueStreak,
    hbc.zeroRunStartFee.trans hab.zeroRunStartFee, hbc.zeroRunStartTs.trans hab.zeroRunStartTs⟩

structure Posterior (lo hi : ℝ) (s : GaussianThompsonState ℝ) : Prop where
  mean : Stretched lo hi s.posteriorMean
  std : 10 ≤ s.posteriorStd
  noise : 10 ≤ s.noiseVariance

structure Grounded (lo hi : ℝ) (s : GaussianThompsonState ℝ) : Prop where
  observed : Observed lo hi s.observations
  priorLow : lo ≤ s.priorMeanFee
  priorHigh : s.priorMeanFee ≤ hi
  priorStd : 10 ≤ s.priorStdFee
  noise : 10 ≤ s.noiseVariance

theorem Grounded.prior (h : Grounded lo hi s) : Stretched lo hi s.priorMeanFee :=
  .of_between h.priorLow h.priorHigh

theorem normal_rebuilt (s : GaussianThompsonState ℝ) (wobs : List (WeightedObs ℝ)) :
    Rebuilt s (normalPosterior s wobs) ∧
    (normalPosterior s wobs).noiseVariance = s.noiseVariance := by
  rw [normalPosterior]
  split <;> exact ⟨⟨rfl, rfl, rfl, rfl, rfl, rfl, rfl⟩, rfl⟩

theorem legacy_posterior (h : Grounded lo hi s) (hw : Weighed lo hi wobs) :
    Rebuilt s (recomputePosteriorLegacy s (some wobs) now) ∧
      Posterior lo hi (recomputePosteriorLegacy s (some wobs) now) := by
  obtain ⟨hsame, hnoise⟩ := normal_rebuilt (floatTags s) wobs
  have hmean := normalPosterior_between (s := floatTags s) hw h.priorLow h.priorHigh
  exact ⟨⟨hsame.observations, hsame.posteriorBias, hsame.priorMeanFee, hsame.priorStdFee,
    hsame.zeroRevenueStreak, hsame.zeroRunStartFee, hsame.zeroRunStartTs⟩,
    .of_between hmean.1 hmean.2, normalPosterior_std h.priorStd, hnoise ▸ h.noise⟩

theorem fit_posterior (now : ℤ) (h : Grounded lo hi s) (hw : Weighed lo hi wobs) :
    Rebuilt s (fitPosterior s wobs now) ∧ Posterior lo hi (fitPosterior s wobs now) := by
  rw [fitPosterior]
  split
  · exact legacy_posterior h hw
  · rename_i hmany
    split
    · exact legacy_posterior h hw
    · dsimp only
      split
      · exact legacy_posterior h hw
      · rename_i sigma _
        have hne : wobs ≠ [] := by
          rintro rfl
          exact hmany (by decide)
        obtain ⟨hmean, hstd⟩ := fittedPosterior_stretched hw hne _ sigma
        refine ⟨⟨rfl, rfl, rfl, rfl, rfl, rfl, rfl⟩, hmean, hstd, ?_⟩
        exact le_trans (by norm_num) (le_max_left _ _)

theorem trackChargedFee_rebuilt (s : GaussianThompsonState ℝ) (wobs : List (WeightedObs ℝ)) :
    Rebuilt s (trackChargedFee s wobs) ∧
      (trackChargedFee s wobs).noiseVariance = s.noiseVariance := by
  rw [trackChargedFee]
  split <;> exact ⟨⟨rfl, rfl, rfl, rfl, rfl, rfl, rfl⟩, rfl⟩

theorem core_posterior (h : Grounded lo hi s) (now : ℤ) :
    Rebuilt s (recomputePosteriorCore s now) ∧ Posterior lo hi (recomputePosteriorCore s now) := by
  rw [recomputePosteriorCore]
  split
  · exact ⟨⟨rfl, rfl, rfl, rfl, rfl, rfl, rfl⟩, h.prior, h.priorStd, h.noise⟩
  · have hw : Weighed lo hi (weightedObs (floatTags s) now) := weightedObs_weighed h.observed
    obtain ⟨htracked, hnoise⟩ :=
      trackChargedFee_rebuilt (floatTags s) (weightedObs (floatTags s) now)
    have hstart : Rebuilt s (floatTags s) := ⟨rfl, rfl, rfl, rfl, rfl, rfl, rfl⟩
    dsimp only
    split
    · rename_i mean std hanchor
      obtain ⟨hmean, hstd⟩ := regimeAnchor_between (s := floatTags s) h.observed
        htracked.observations hanchor
      have hsame := hstart.trans htracked
      exact ⟨⟨hsame.observations, hsame.posteriorBias, hsame.priorMeanFee, hsame.priorStdFee,
        hsame.zeroRevenueStreak, hsame.zeroRunStartFee, hsame.zeroRunStartTs⟩,
        .of_between hmean.1 hmean.2, hstd, hnoise ▸ h.noise⟩
    · have hground : Grounded lo hi
          (trackChargedFee (floatTags s) (weightedObs (floatTags s) now)) :=
        ⟨htracked.observations ▸ h.observed, htracked.priorMeanFee ▸ h.priorLow,
          htracked.priorMeanFee ▸ h.priorHigh, htracked.priorStdFee ▸ h.priorStd, hnoise ▸ h.noise⟩
      obtain ⟨hsame, hpost⟩ := fit_posterior now hground hw
      exact ⟨(hstart.trans htracked).trans hsame, hpost⟩

end Core

end

end Thompson
