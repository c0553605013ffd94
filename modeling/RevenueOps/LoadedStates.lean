import RevenueOps.CheckedCalls
import RevenueOps.FeeStateLoading
import RevenueOps.MultiplierRange

/-! The calls on a state that was loaded from a stored blob: which numbers in the
blob end the thread
of the owner, and which ones let the multiplier leave its range. -/
namespace FeeStateLoading

open Arithmetic PyJson RustNumber FeeCycle Binary64
open Thompson (GaussianThompsonState gtsFromDict Observation Nudge tryInt countField agesFit)
open Pid (PidState pidFromDict Logarithms)
open FeeRunway (FeeStateRow)

section Values

theorem fits_get {v w : OValue} {key : String} (hv : v.Fits) (h : v.get key = some w) : w.Fits := by
  cases hv with
  | obj hall =>
    obtain ⟨e, he, rfl⟩ := Option.map_eq_some_iff.mp h
    exact hall e (List.mem_of_find?_eq_some he)
  | _ => cases h

theorem fits_asArr {v : OValue} {items : List OValue} (hv : v.Fits) (h : v.asArr = some items) :
    ∀ w ∈ items, w.Fits := by
  cases hv with
  | arr hall =>
    cases h
    exact hall
  | _ => cases h

theorem inI64_bool (b : Bool) : InI64 (if b then 1 else 0) := by
  cases b <;> decide

theorem inI64_asI64 (f : Float) : InI64 (asI64 f) := asI64_bounds f

theorem fits_asI64 {v : OValue} {i : ℤ} (hv : v.Fits) (h : v.asI64 = some i) : InI64 i := by
  cases hv with
  | int hi =>
    cases h
    exact hi
  | float f =>
    simp only [OValue.asI64] at h
    split at h
    · cases h
      exact inI64_asI64 f
    · cases h
  | bool b =>
    cases h
    exact inI64_bool b
  | _ => cases h

theorem fits_tryInt {v : OValue} {i : ℤ} (hv : v.Fits) (h : tryInt v = some i) : InI64 i := by
  cases hv with
  | int hi =>
    cases h
    exact hi
  | float f =>
    simp only [tryInt] at h
    split at h
    · cases h
      exact inI64_asI64 f
    · cases h
  | bool b =>
    cases h
    exact inI64_bool b
  | str s => exact inI64_of_parseI64 h
  | _ => cases h

theorem countField_bounds {d : OValue} (hd : d.Fits) (key : String) :
    0 ≤ countField d key ∧ countField d key ≤ 9223372036854775807 := by
  rw [countField]
  cases hv : (d.get key).bind tryInt with
  | none => exact ⟨le_rfl, by decide⟩
  | some i =>
    obtain ⟨w, hw, hi⟩ := Option.bind_eq_some_iff.mp hv
    obtain ⟨-, hhigh⟩ := fits_tryInt (fits_get hd hw) hi
    simp only [Option.map_some, Option.getD_some]
    omega

theorem intOr_bounds {d : OValue} (hd : d.Fits) (key : String) {default : ℤ}
    (hdefault : InI64 default) :
    InI64 (Pid.intOr d key default) := by
  rw [Pid.intOr]
  split
  · rename_i v hv
    cases hi : v.asI64.or (v.asStr.bind RustText.parseI64) with
    | none => exact hdefault
    | some i =>
      rcases Option.or_eq_some_iff.mp hi with hi | ⟨-, hi⟩
      · exact fits_asI64 (fits_get hd hv) hi
      · obtain ⟨s, -, hs⟩ := Option.bind_eq_some_iff.mp hi
        exact inI64_of_parseI64 hs
  · exact hdefault

end Values

section Loading

/-- What the loaders promise of the whole numbers in a state. -/
structure InWidth (f : LearnedFeeState) : Prop where
  observed : ∀ o ∈ f.thompson.observations, InI64 o.ts
  nudged : ∀ n ∈ f.thompson.posteriorBias, InI64 n.ts
  ref : f.thompson.positiveRateRefTs ≤ 9223372036854775807
  meaningful : f.thompson.lastMeaningfulTs ≤ 9223372036854775807
  streak : 0 ≤ f.thompson.zeroRevenueStreak ∧ f.thompson.zeroRevenueStreak ≤ 9223372036854775807
  updated : f.pid.lastUpdateTime ≤ 9223372036854775807

theorem convertNudge_ts {entry : OValue} (hentry : entry.Fits) {n : Nudge Float}
    (h : Thompson.convertNudge entry = some n) : InI64 n.ts := by
  rw [Thompson.convertNudge] at h
  split at h
  · rename_i target weight ts rest harr
    have hts : ts.Fits := fits_asArr hentry harr ts (by simp)
    simp only [Option.bind_eq_bind, Option.bind_eq_some_iff] at h
    obtain ⟨t, -, w, -, i, hi, hkept⟩ := h
    split at hkept
    · cases hkept
      exact fits_tryInt hts hi
    · cases hkept
  · cases h

theorem fits_list {d : OValue} (hd : d.Fits) (key : String) :
    ∀ w ∈ ((d.get key).bind OValue.asArr).getD [], w.Fits := by
  cases hitems : (d.get key).bind OValue.asArr with
  | none => exact fun w hw => absurd hw List.not_mem_nil
  | some items =>
    obtain ⟨v, hv, harr⟩ := Option.bind_eq_some_iff.mp hitems
    exact fits_asArr (fits_get hd hv) harr

theorem get_objSetdefault {entries : List (String × OValue)} {key other : String} (v : OValue)
    (h : key ≠ other) :
    (OValue.obj (objSetdefault entries key v)).get other = (OValue.obj entries).get other := by
  rw [objSetdefault]
  split
  · rfl
  · simp only [OValue.get, List.find?_append]
    have hother : ([(key, v)] : List (String × OValue)).find? (fun e => e.1 = other) = none := by
      simp [h]
    rw [hother, Option.or_none]

/-- The parts of the payload that the learned state is read from come from the blob alone. -/
theorem payload_fits {raw v : OValue} (hraw : raw.Fits) (row : FeeStrategyRow) {key : String}
    (hkey : key = "thompson_state" ∨ key = "pid_state")
    (h : (extractFeeStatePayload raw row).get key = some v) : v.Fits := by
  have hentries : ∀ e ∈ feeStateEntries raw, e.2.Fits := by
    rw [feeStateEntries]
    split
    · rename_i entries hget
      have hobj := fits_get hraw hget
      cases hobj with
      | obj hall => exact hall
    · intro e he
      obtain ⟨k, -, hk⟩ := List.mem_filterMap.mp he
      obtain ⟨w, hw, rfl⟩ := Option.map_eq_some_iff.mp hk
      exact fits_get hraw hw
  have hsame :
      (extractFeeStatePayload raw row).get key = (OValue.obj (feeStateEntries raw)).get key := by
    simp only [extractFeeStatePayload]
    rcases hkey with rfl | rfl
    · rw [get_objSetdefault _ (by decide), get_objSetdefault _ (by decide),
        get_objSetdefault _ (by decide), get_objSetdefault _ (by decide),
        get_objSetdefault _ (by decide)]
    · rw [get_objSetdefault _ (by decide), get_objSetdefault _ (by decide),
        get_objSetdefault _ (by decide), get_objSetdefault _ (by decide),
        get_objSetdefault _ (by decide)]
  rw [hsame] at h
  exact fits_get (.obj hentries) h

theorem rawOf_fits (blob : String) : (rawOf blob).Fits := by
  have hempty : (OValue.obj []).Fits := .obj fun e he => absurd he List.not_mem_nil
  rw [rawOf]
  split
  · exact hempty
  · have hsound := sound_parse blob
    split
    · rename_i v hv
      rw [hv] at hsound
      exact hsound
    · exact hempty

theorem payload_getD_fits (row : FeeStrategyRow) {key : String}
    (hkey : key = "thompson_state" ∨ key = "pid_state") :
    (((extractFeeStatePayload (rawOf row.v2StateJson) row).get key).getD (.obj [])).Fits := by
  cases hv : (extractFeeStatePayload (rawOf row.v2StateJson) row).get key with
  | none => exact .obj fun e he => absurd he List.not_mem_nil
  | some v => exact payload_fits (rawOf_fits row.v2StateJson) row hkey hv

theorem pid_updated {d : OValue} (hd : d.Fits) :
    (pidFromDict d).lastUpdateTime ≤ 9223372036854775807 := by
  have hupdated : (pidFromDict d).lastUpdateTime = Pid.intOr d "last_update_time" 0 := rfl
  rw [hupdated]
  exact (intOr_bounds hd _ (by decide)).2

variable [Logarithms Float]

theorem convertObservation_ts {legacy : Bool} {item : OValue} (hitem : item.Fits)
    {o : Observation Float} (h : Thompson.convertObservation legacy item = some o) :
    InI64 o.ts := by
  rw [Thompson.convertObservation] at h
  split at h
  · rename_i fee rate weight ts rest harr
    cases h
    have hts : ts.Fits := fits_asArr hitem harr ts (by simp)
    change InI64 (ts.asI64.getD 0)
    cases hi : ts.asI64 with
    | none => decide
    | some i => exact fits_asI64 hts hi
  · cases h

variable [F64Functions Float]

theorem gts_observed {d : OValue} (hd : d.Fits) :
    ∀ o ∈ (gtsFromDict d).observations, InI64 o.ts := by
  intro o ho
  obtain ⟨item, hitem, hconvert⟩ := List.mem_filterMap.mp ho
  exact convertObservation_ts (fits_list hd "observations" item hitem) hconvert

theorem gts_nudged {d : OValue} (hd : d.Fits) :
    ∀ n ∈ (gtsFromDict d).posteriorBias, InI64 n.ts := by
  intro n hn
  obtain ⟨entry, hentry, hconvert⟩ := List.mem_filterMap.mp hn
  exact convertNudge_ts (fits_list hd "posterior_bias" entry (List.mem_of_mem_drop hentry)) hconvert

theorem gts_times {d : OValue} (hd : d.Fits) :
    (gtsFromDict d).positiveRateRefTs ≤ 9223372036854775807 ∧
      (gtsFromDict d).lastMeaningfulTs ≤ 9223372036854775807 := by
  have href : (gtsFromDict d).positiveRateRefTs = countField d "positive_rate_ref_ts" := rfl
  have hmeaningful : (gtsFromDict d).lastMeaningfulTs = countField d "last_meaningful_ts" := rfl
  rw [href, hmeaningful]
  exact ⟨(countField_bounds hd _).2, (countField_bounds hd _).2⟩

theorem gts_streak {d : OValue} (hd : d.Fits) : 0 ≤ (gtsFromDict d).zeroRevenueStreak ∧
    (gtsFromDict d).zeroRevenueStreak ≤ 9223372036854775807 := by
  have hstreak : (gtsFromDict d).zeroRevenueStreak = countField d "zero_revenue_streak" := rfl
  rw [hstreak]
  exact countField_bounds hd _

/-- Every row loads into a state whose whole numbers are i64. -/
theorem loadRowFee_inWidth (row : FeeStrategyRow) : InWidth (loadRowFee row) := by
  have hthompson := payload_getD_fits row (.inl rfl)
  have hupdated : (loadRowFee row).pid.lastUpdateTime ≤ 9223372036854775807 :=
    pid_updated (payload_getD_fits row (.inr rfl))
  have hloaded : (loadRowFee row).thompson = gtsFromDict
      (((extractFeeStatePayload (rawOf row.v2StateJson) row).get "thompson_state").getD (.obj [])) ∨
      (loadRowFee row).thompson = .default := by
    change (if _ then _ else _) = _ ∨ (if _ then _ else _) = _
    split
    · exact .inl rfl
    · exact .inr rfl
  rcases hloaded with hloaded | hloaded
  · obtain ⟨href, hmeaningful⟩ := gts_times hthompson
    refine ⟨?_, ?_, ?_, ?_, ?_, hupdated⟩ <;> rw [hloaded]
    exacts [gts_observed hthompson, gts_nudged hthompson, href, hmeaningful, gts_streak hthompson]
  · refine ⟨?_, ?_, ?_, ?_, ?_, hupdated⟩ <;> rw [hloaded]
    exacts [fun o ho => absurd ho List.not_mem_nil, fun n hn => absurd hn List.not_mem_nil,
      by decide, by decide, by decide]

end Loading

section Calls

inductive Call where
  | multiplier (currentOutboundRatio : Float) (capacitySats : ℤ) (flowState : String) (now : ℤ)
  | update (fee revenueRate hours : Float) (timeBucket : String) (congested : Bool) (now : ℤ)
  | discount (gamma : Float)
  | ceiling (now : ℤ) (floorPpm : Option Float)
  | nudge (targetFee weight : Float) (now : ℤ)

inductive Reply where
  | done
  | multiplier (m : Float)
  | ceiling (c : Option Float)

/-- The time of a call lies between 0 and 2^40, and a capacity is an i64. -/
def Call.Timely : Call → Prop
  | .multiplier _ capacity _ now => InI64 capacity ∧ 0 ≤ now ∧ now ≤ 1099511627776
  | .update _ _ _ _ _ now | .ceiling now _ | .nudge _ _ now => 0 ≤ now ∧ now ≤ 1099511627776
  | .discount _ => True

def Call.isUpdate : Call → Bool
  | .update .. => true
  | _ => false

section Run

variable [F64Functions Float] [Logarithms Float]

def step (f : LearnedFeeState) : Call → Option (LearnedFeeState × Reply)
  | .multiplier ratio capacity flowState now =>
    (Pid.calculateMultiplier f.pid ratio capacity flowState now).map fun r =>
      ({ f with pid := r.1 }, .multiplier r.2)
  | .update fee revenueRate hours timeBucket congested now =>
    (Thompson.checkedUpdate f.thompson fee revenueRate hours timeBucket congested now).map fun t =>
      ({ f with thompson := t }, .done)
  | .discount gamma =>
      some ({ f with thompson := Thompson.applyDtsDiscount f.thompson gamma }, .done)
  | .ceiling now floorPpm =>
    (Thompson.supportedFeeCeiling f.thompson now floorPpm).map fun c => (f, .ceiling c)
  | .nudge targetFee weight now =>
    some ({ f with thompson := Thompson.recordPosteriorNudge f.thompson targetFee weight now },
      .done)

def run (f : LearnedFeeState) : List Call → Option LearnedFeeState
  | [] => some f
  | c :: calls => (step f c).bind fun r => run r.1 calls

end Run

def Recent (ts : ℤ) : Prop := 1099511627776 - ts ≤ 9223372036854775807

instance (ts : ℤ) : Decidable (Recent ts) := inferInstanceAs (Decidable (_ ≤ _))

/-- What a stored state must hold for so many updates and any other calls. -/
structure Safe (f : LearnedFeeState) (updates : ℕ) : Prop where
  ordered : -f.pid.integralClamp ≤ f.pid.integralClamp
  observed : ∀ o ∈ f.thompson.observations, Recent o.ts
  nudged : ∀ n ∈ f.thompson.posteriorBias, Recent n.ts
  streak : f.thompson.zeroRevenueStreak + updates ≤ 9223372036854775807

structure Steady (f : LearnedFeeState) (updates : ℕ) : Prop where
  width : InWidth f
  safe : Safe f updates

theorem inI64_age {now ts : ℤ} (hrecent : Recent ts) (hwidth : InI64 ts) (h0 : 0 ≤ now)
    (h1 : now ≤ 1099511627776) : InI64 (now - ts) := by
  obtain ⟨-, hhigh⟩ := hwidth
  rw [Recent] at hrecent
  constructor
  · omega
  · omega

variable {f : LearnedFeeState} {n : ℕ} {now : ℤ}

theorem Steady.observedFit (h : Steady f n) (h0 : 0 ≤ now) (h1 : now ≤ 1099511627776)
    {obs : List (Observation Float)}
    (hobs : ∀ o ∈ obs, o ∈ f.thompson.observations ∨ o.ts = now) :
    agesFit now (obs.map Observation.ts) := by
  intro ts hts
  obtain ⟨o, ho, rfl⟩ := List.mem_map.mp hts
  rcases hobs o ho with ho | ho
  · exact inI64_age (h.safe.observed o ho) (h.width.observed o ho) h0 h1
  · rw [ho, sub_self]
    decide

theorem Steady.nudgedFit (h : Steady f n) (h0 : 0 ≤ now) (h1 : now ≤ 1099511627776) :
    agesFit now (f.thompson.posteriorBias.map Nudge.ts) := by
  intro ts hts
  obtain ⟨m, hm, rfl⟩ := List.mem_map.mp hts
  exact inI64_age (h.safe.nudged m hm) (h.width.nudged m hm) h0 h1

theorem recent_now (h1 : now ≤ 1099511627776) (h0 : 0 ≤ now) : Recent now ∧ InI64 now := by
  rw [Recent, InI64]
  omega

theorem Steady.withPid (h : Steady f n) {pid : PidState Float}
    (hclamp : pid.integralClamp = f.pid.integralClamp)
    (hupdated : pid.lastUpdateTime ≤ 9223372036854775807) : Steady { f with pid := pid } n := by
  obtain ⟨⟨hobs, hbias, href, hmeaningful, hstreak, -⟩, hordered, hrecent, hrecent', hroom⟩ := h
  refine ⟨⟨hobs, hbias, href, hmeaningful, hstreak, hupdated⟩, ?_, hrecent, hrecent', hroom⟩
  change -pid.integralClamp ≤ pid.integralClamp
  rwa [hclamp]

/-- A state with a posterior whose times and counts come from the old one or from the moment. -/
theorem Steady.withThompson {k : ℕ} (h : Steady f k) (h0 : 0 ≤ now) (h1 : now ≤ 1099511627776)
    {t : GaussianThompsonState Float}
    (hobs : ∀ o ∈ t.observations, o.ts = now ∨ ∃ p ∈ f.thompson.observations, o.ts = p.ts)
    (hbias : ∀ m ∈ t.posteriorBias, m ∈ f.thompson.posteriorBias ∨ m.ts = now)
    (href : t.positiveRateRefTs = f.thompson.positiveRateRefTs ∨ t.positiveRateRefTs = now)
    (hmeaningful : t.lastMeaningfulTs = f.thompson.lastMeaningfulTs ∨ t.lastMeaningfulTs = now)
    (hstreak : 0 ≤ t.zeroRevenueStreak) (hroom : t.zeroRevenueStreak + n ≤ 9223372036854775807) :
    Steady { f with thompson := t } n := by
  obtain ⟨⟨hwobs, hwbias, hwref, hwmeaningful, -, hupdated⟩, hordered, hrecent, hrecent', -⟩ := h
  have hnow := recent_now h1 h0
  have htop : t.zeroRevenueStreak ≤ 9223372036854775807 := by omega
  refine ⟨⟨fun o ho => ?_, fun m hm => ?_, ?_, ?_, ⟨hstreak, htop⟩, hupdated⟩, hordered,
    fun o ho => ?_, fun m hm => ?_, hroom⟩
  · rcases hobs o ho with ho | ⟨p, hp, ho⟩
    · exact ho ▸ hnow.2
    · exact ho ▸ hwobs p hp
  · rcases hbias m hm with hm | hm
    · exact hwbias m hm
    · exact hm ▸ hnow.2
  · change t.positiveRateRefTs ≤ _
    omega
  · change t.lastMeaningfulTs ≤ _
    omega
  · rcases hobs o ho with ho | ⟨p, hp, ho⟩
    · exact ho ▸ hnow.1
    · exact ho ▸ hrecent p hp
  · rcases hbias m hm with hm | hm
    · exact hrecent' m hm
    · exact hm ▸ hnow.1

section Steps

theorem elapsed_fits (h : f.pid.lastUpdateTime ≤ 9223372036854775807) (h0 : 0 ≤ now)
    (h1 : now ≤ 1099511627776) : ∃ dt, Pid.elapsed f.pid now = some dt := by
  rw [Pid.elapsed]
  split
  · exact ⟨_, rfl⟩
  · have hfits : InI64 (now - f.pid.lastUpdateTime) := by
      rw [InI64]
      omega
    rw [i64?, if_pos hfits]
    exact ⟨_, rfl⟩

theorem nudge_step (h : Steady f n) (target weight : Float) (h0 : 0 ≤ now)
    (h1 : now ≤ 1099511627776) :
    Steady { f with thompson := Thompson.recordPosteriorNudge f.thompson target weight now } n := by
  obtain ⟨hobs, hcount, href, hmeaningful, hbias⟩ :=
    Thompson.nudge_counts f.thompson target weight now rfl
  refine h.withThompson h0 h1 (fun o ho => .inr ⟨o, hobs ▸ ho, rfl⟩) hbias (.inl href)
    (.inl hmeaningful) ?_ ?_
  · rw [hcount]
    exact h.width.streak.1
  · rw [hcount]
    exact h.safe.streak

variable [F64Functions Float]

theorem update_step (h : Steady f (n + 1)) (fee revenueRate hours : Float) (timeBucket : String)
    (congested : Bool) (h0 : 0 ≤ now) (h1 : now ≤ 1099511627776) :
    ∃ t, Thompson.checkedUpdate f.thompson fee revenueRate hours timeBucket congested now = some t ∧
      Steady { f with thompson := t } n := by
  have hstreak := h.width.streak
  have hroom := h.safe.streak
  push_cast at hroom
  rw [Thompson.checkedUpdate]
  split
  · refine ⟨_, rfl, ?_⟩
    exact h.withThompson h0 h1 (fun o ho => .inr ⟨o, ho, rfl⟩) (fun m hm => .inl hm) (.inl rfl)
      (.inl rfl) hstreak.1 (by omega)
  · obtain ⟨hbias, hcounts⟩ :=
      Thompson.takeWindow_counts f.thompson fee revenueRate hours timeBucket
      congested now rfl
    have hfits : Thompson.UpdateFits f.thompson fee revenueRate hours timeBucket congested now := by
      refine ⟨?_, ⟨fun _ hpos hlt => ?_, fun _ => ?_⟩, fun _ => ?_, ?_, ?_⟩
      · by_cases hts : f.thompson.positiveRateRefTs ≤ 0
        · exact .inr (.inl hts)
        · have href := h.width.ref
          refine .inr (.inr ?_)
          rw [InI64]
          omega
      · rw [InI64]
        omega
      · rw [InI64]
        omega
      · exact h.observedFit h0 h1 fun o ho =>
          Thompson.grown_observed f.thompson fee revenueRate hours
          timeBucket congested now (List.mem_of_mem_filter ho)
      · exact h.observedFit h0 h1 fun o ho =>
          Thompson.takeWindow_observed f.thompson fee revenueRate
          hours timeBucket congested now ho
      · rw [hbias]
        exact h.nudgedFit h0 h1
    refine ⟨_,
      (Thompson.computes_checkedWindow f.thompson fee revenueRate hours timeBucket congested
      now).value hfits, ?_⟩
    obtain ⟨hobs, hcount, href, hmeaningful, hkept⟩ := Thompson.recompute_carries
      (Thompson.takeWindow f.thompson fee revenueRate hours timeBucket congested now) now now
    refine h.withThompson h0 h1 (fun o ho => ?_) (fun m hm => .inl (hbias ▸ hkept m hm)) ?_ ?_ ?_ ?_
    · rw [hobs] at ho
      rcases Thompson.takeWindow_observed f.thompson fee revenueRate hours timeBucket
        congested now ho
        with ho | ho
      · exact .inr ⟨o, ho, rfl⟩
      · exact .inl ho
    · rw [href]
      rcases hcounts with ⟨-, -, hts, -⟩ | ⟨-, -, hts, -⟩
      · exact .inr hts
      · exact .inl hts
    · rw [hmeaningful]
      rcases hcounts with ⟨-, -, -, hts⟩ | ⟨-, -, -, hts⟩
      · exact .inr hts
      · exact .inl hts
    · rw [hcount]
      rcases hcounts with ⟨-, hzero, -⟩ | ⟨-, hnext, -⟩
      · omega
      · omega
    · rw [hcount]
      rcases hcounts with ⟨-, hzero, -⟩ | ⟨-, hnext, -⟩
      · omega
      · omega

theorem discount_step (h : Steady f n) (gamma : Float) :
    Steady { f with thompson := Thompson.applyDtsDiscount f.thompson gamma } n := by
  obtain ⟨hbias, hcount, href, hmeaningful⟩ := Thompson.discount_counts f.thompson gamma rfl
  refine h.withThompson (le_refl (0 : ℤ)) (by decide)
    (fun o ho => .inr (Thompson.discount_observed f.thompson gamma ho))
    (fun m hm => .inl (hbias ▸ hm)) (.inl href) (.inl hmeaningful) ?_ ?_
  · rw [hcount]
    exact h.width.streak.1
  · rw [hcount]
    exact h.safe.streak

theorem ceiling_step (h : Steady f n) (floorPpm : Option Float) (h0 : 0 ≤ now)
    (h1 : now ≤ 1099511627776) :
    ∃ c, Thompson.supportedFeeCeiling f.thompson now floorPpm = some c := by
  obtain ⟨c, hc⟩ := Thompson.computes_supportedFeeCeiling f.thompson now floorPpm
  exact ⟨c, hc.value (h.observedFit h0 h1 fun o ho => .inl (List.mem_of_mem_filter ho))⟩

variable [Logarithms Float]

theorem multiplier_step (h : Steady f n) (ratio : Float) (capacity : ℤ) (flowState : String)
    (h0 : 0 ≤ now) (h1 : now ≤ 1099511627776) :
    ∃ pid m, Pid.calculateMultiplier f.pid ratio capacity flowState now = some (pid, m) ∧
      Steady { f with pid := pid } n := by
  obtain ⟨dt, hdt⟩ := elapsed_fits h.width.updated h0 h1
  have hordered : 0.0 < dt → -f.pid.integralClamp ≤ f.pid.integralClamp := fun _ => h.safe.ordered
  obtain ⟨integralError, hintegral⟩ :=
    Pid.accumulated_of_ordered (Pid.newAverage f.pid ratio flowState) hordered
  refine ⟨_, _, Pid.calculateMultiplier_eq hdt hintegral, h.withPid rfl ?_⟩
  change now ≤ _
  omega

theorem steady_step (c : Call) (htimely : c.Timely)
    (h : Steady f (n + if c.isUpdate then 1 else 0)) :
    ∃ g r, step f c = some (g, r) ∧ Steady g n := by
  cases c with
  | multiplier ratio capacity flowState now =>
    obtain ⟨-, h0, h1⟩ := htimely
    obtain ⟨pid, m, hcall, hnext⟩ := multiplier_step h ratio capacity flowState h0 h1
    exact ⟨_, _, by rw [step, hcall]; rfl, hnext⟩
  | update fee revenueRate hours timeBucket congested now =>
    obtain ⟨t, hcall, hnext⟩ := update_step h fee revenueRate hours timeBucket congested htimely.1
      htimely.2
    exact ⟨_, _, by rw [step, hcall]; rfl, hnext⟩
  | discount gamma => exact ⟨_, _, rfl, discount_step h gamma⟩
  | ceiling now floorPpm =>
    obtain ⟨c, hcall⟩ := ceiling_step h floorPpm htimely.1 htimely.2
    exact ⟨_, _, by rw [step, hcall]; rfl, h⟩
  | nudge target weight now => exact ⟨_, _, rfl, nudge_step h target weight htimely.1 htimely.2⟩

theorem finiteFields_step {c : Call} {g : LearnedFeeState} {r : Reply} (h : Pid.FiniteFields f.pid)
    (hstep : step f c = some (g, r)) : Pid.FiniteFields g.pid := by
  cases c with
  | multiplier ratio capacity flowState now =>
    obtain ⟨⟨pid, m⟩, hcall, heq⟩ := Option.map_eq_some_iff.mp hstep
    cases heq
    exact Pid.finiteFields_advanced h hcall
  | update fee revenueRate hours timeBucket congested now =>
    obtain ⟨t, -, heq⟩ := Option.map_eq_some_iff.mp hstep
    cases heq
    exact h
  | ceiling now floorPpm =>
    obtain ⟨c, -, heq⟩ := Option.map_eq_some_iff.mp hstep
    cases heq
    exact h
  | discount gamma =>
    cases hstep
    exact h
  | nudge target weight now =>
    cases hstep
    exact h

/-- A run of calls returns, with the fields of the controller finite where they were. -/
theorem steady_run (calls : List Call) (htimely : ∀ c ∈ calls, c.Timely)
    (h : Steady f (n + calls.countP Call.isUpdate)) :
    ∃ g, run f calls = some g ∧ Steady g n ∧ (Pid.FiniteFields f.pid → Pid.FiniteFields g.pid) := by
  induction calls generalizing f with
  | nil => exact ⟨f, rfl, h, id⟩
  | cons c calls ih =>
    rw [List.countP_cons, ← Nat.add_assoc] at h
    obtain ⟨g, r, hstep, hg⟩ := steady_step c (htimely c List.mem_cons_self) h
    obtain ⟨k, hrun, hk, hfinite⟩ := ih (fun d hd => htimely d (List.mem_cons_of_mem _ hd)) hg
    refine ⟨k, ?_, hk, fun hf => hfinite (finiteFields_step hf hstep)⟩
    rw [run, hstep]
    exact hrun

end Steps

section Rows

open KeyedTable

theorem insertAll_mem {α : Type} {m : Dict String α} {entries : List (String × α)}
    {k : String} {v : α}
    (h : (m.insertAll entries).get? k = some v) : m.get? k = some v ∨ (k, v) ∈ entries := by
  rw [Dict.insertAll] at h
  induction entries generalizing m with
  | nil => exact .inl h
  | cons e entries ih =>
    rcases ih h with h | h
    · rw [Dict.get_insert] at h
      split at h
      · rename_i hk
        cases h
        subst hk
        exact .inr List.mem_cons_self
      · exact .inl h
    · exact .inr (List.mem_cons_of_mem _ h)

variable [F64Functions Float] [Logarithms Float]

/-- The owner's state after a restart from its own rows, or after the one seed from the Python
store. -/
def Loaded (s s' : OwnerState) : Prop :=
  (∃ rows, rehydrateFromRows s rows = .ok s') ∨
    ∃ rows, s' = setSkipGatesToOwned (hydrateFromStrategyRows s rows)

theorem loaded_row {s s' : OwnerState} (h : Loaded s s') {channel : String} {f : LearnedFeeState}
    (hf : s'.feeStates.get? channel = some f) : ∃ row, f = loadRowFee row := by
  have hrows : ∃ rows, s' = setSkipGatesToOwned (hydrateFromStrategyRows s rows) := by
    rcases h with ⟨rows, hok⟩ | hseeded
    · rw [rehydrateFromRows] at hok
      cases hmap : rows.mapM strategyRow with
      | error e =>
        rw [hmap] at hok
        cases hok
      | ok strategyRows =>
        rw [hmap] at hok
        cases hok
        exact ⟨strategyRows, rfl⟩
    · exact hseeded
  obtain ⟨rows, rfl⟩ := hrows
  rcases insertAll_mem hf with hnone | hmem
  · cases hnone
  · obtain ⟨row, -, heq⟩ := List.mem_map.mp hmem
    cases heq
    exact ⟨row, rfl⟩

def Reply.InRange : Reply → Prop
  | .multiplier m => 0.5 ≤ m ∧ m ≤ 2.0
  | _ => True

def Call.Bounded (f : LearnedFeeState) : Call → Prop
  | .multiplier ratio _ flowState _ => Pid.Bounded f.pid ratio flowState
  | _ => True

/-- A loaded state whose clamp is in order, whose times are recent and whose streak has room serves
every run of calls; its multipliers stay in range as long as their fields are finite and their terms
cannot both be infinite. -/
theorem loaded_state_serves (hlog : ∀ x : Float, 2.0 ≤ x → 1.0 ≤ Logarithms.log2 x)
    (hpow : ∀ y : Float, y.isNaN = false → (F64Functions.powf 1.5 y).isNaN = false)
    {s s' : OwnerState} (hload : Loaded s s') {channel : String} {f : LearnedFeeState}
    (hf : s'.feeStates.get? channel = some f) {calls : List Call} {call : Call}
    (htimely : ∀ c ∈ calls ++ [call], c.Timely)
    (hsafe : Safe f ((calls ++ [call]).countP Call.isUpdate)) :
    ∃ g g' r, run f calls = some g ∧ step g call = some (g', r) ∧
      (Pid.FiniteFields f.pid → call.Bounded g → r.InRange) := by
  obtain ⟨row, rfl⟩ := loaded_row hload hf
  rw [List.countP_append, Nat.add_comm] at hsafe
  obtain ⟨g, hrun, hg, hfinite⟩ := steady_run calls
    (fun c hc => htimely c (List.mem_append_left _ hc)) ⟨loadRowFee_inWidth row, hsafe⟩
  have hcall := htimely call (List.mem_append_right _ List.mem_cons_self)
  have hg' : Steady g (0 + if call.isUpdate then 1 else 0) := by
    rw [List.countP_cons, List.countP_nil, Nat.zero_add] at hg
    rwa [Nat.zero_add]
  obtain ⟨g', r, hstep, -⟩ := steady_step call hcall hg'
  refine ⟨g, g', r, hrun, hstep, fun hfields hbounded => ?_⟩
  cases call with
  | multiplier ratio capacity flowState now =>
    obtain ⟨⟨pid, m⟩, hmultiplier, heq⟩ := Option.map_eq_some_iff.mp hstep
    cases heq
    exact Pid.multiplier_in_range hlog hpow hcall.1 (hfinite hfields) hbounded hmultiplier
  | update fee revenueRate hours timeBucket congested now =>
    obtain ⟨t, -, heq⟩ := Option.map_eq_some_iff.mp hstep
    cases heq
    trivial
  | ceiling now floorPpm =>
    obtain ⟨c, -, heq⟩ := Option.map_eq_some_iff.mp hstep
    cases heq
    trivial
  | discount gamma =>
    cases hstep
    trivial
  | nudge target weight now =>
    cases hstep
    trivial

end Rows

end Calls

section StoredRuns

def storedPowers : List (Float × Float × Float) :=
  [(0.5, 1.0, 0.5), (1.5, -0.27, 0.8963040525665271),
    (1.5, -0.294, 0.887624272765655)]

def storedPow (x y : Float) : Float :=
  if y == 2.0 then x * x
  else ((storedPowers.find? fun e => e.1 == x && e.2.1 == y).map fun e => e.2.2).getD 1.0

theorem storedPow_not_nan (y : Float) : (storedPow 1.5 y).isNaN = false := by
  unfold storedPow
  split
  · decide +kernel
  · cases h : storedPowers.find? fun e => e.1 == 1.5 && e.2.1 == y with
    | none =>
      change (1.0 : Float).isNaN = false
      decide +kernel
    | some e =>
      have hall : (storedPowers.all fun e => !e.2.2.isNaN) = true := by decide +kernel
      have hmem := List.all_eq_true.mp hall e (List.mem_of_find?_eq_some h)
      simpa using hmem

local instance storedFunctions : F64Functions Float := ⟨Float.sqrt, id, storedPow⟩

local instance storedLogarithms : Logarithms Float := ⟨fun _ => 2.0, fun _ => 0.0⟩

def storedRow (feeState : String) : FeeStateRow where
  channelId := "1x1x1"
  v2StateJson := "\x7b\"fee_state\":\x7b" ++ feeState ++ "\x7d,\"cycle_state\":\x7b\x7d\x7d"
  lastUpdate := 1

def storedState (feeState : String) : Option (OwnerState × LearnedFeeState) :=
  match rehydrateFromRows ControllerState.new [storedRow feeState] with
  | .ok s => (s.feeStates.get? "1x1x1").map fun f => (s, f)
  | .error _ => none

theorem storedState_loaded {feeState : String} {s : OwnerState} {f : LearnedFeeState}
    (h : storedState feeState = some (s, f)) :
    rehydrateFromRows ControllerState.new [storedRow feeState] = .ok s ∧
      s.feeStates.get? "1x1x1" = some f := by
  unfold storedState at h
  cases hok : rehydrateFromRows ControllerState.new [storedRow feeState] with
  | error e =>
    rw [hok] at h
    cases h
  | ok s' =>
    rw [hok] at h
    obtain ⟨f', hf, heq⟩ := Option.map_eq_some_iff.mp h
    cases heq
    exact ⟨rfl, hf⟩

def multiplierCall : Call := .multiplier 0.9 2000000 "balanced" 2

/-- One window of a week ago, one nudge of a day ago and three windows without revenue. -/
def activeState : String :=
  "\"pid_state\":\x7b\"last_update_time\":1\x7d,\"thompson_state\":\x7b" ++
    "\"weight_scheme\":\"exposure_v2\",\"zero_revenue_streak\":3," ++
    "\"observations\":[[300,50,1,1]],\"posterior_bias\":[[250,2,518401]]\x7d"

def activeCalls : List Call :=
  [.update 320.0 0.0 6.0 "normal" false 604801, .ceiling 604801 (some 100.0),
    .multiplier 0.9 2000000 "balanced" 604801]

def laterCall : Call := .multiplier 0.7 2000000 "balanced" 608401

def reversedState : String := "\"pid_state\":\x7b\"integral_clamp\":-1.0,\"last_update_time\":1\x7d"

theorem multiplierCall_timely : multiplierCall.Timely := by
  rw [multiplierCall, Call.Timely]
  decide

theorem activeCalls_timely : ∀ c ∈ activeCalls ++ [laterCall], c.Timely := by
  simp only [activeCalls, laterCall, List.cons_append, List.nil_append, List.forall_mem_cons,
    List.not_mem_nil, false_implies, implies_true, and_true, Call.Timely]
  decide

theorem loaded_state_serves_active :
    ∃ s f g g' r, storedState activeState = some (s, f) ∧
      (f.thompson.observations.length, f.thompson.posteriorBias.length,
        f.thompson.zeroRevenueStreak) = (1, 1, 3) ∧
      run f activeCalls = some g ∧ step g laterCall = some (g', r) ∧ r.InRange := by
  have hstored : ((storedState activeState).any fun e =>
      (e.2.thompson.observations.all fun o => decide (Recent o.ts)) &&
        (e.2.thompson.posteriorBias.all fun n => decide (Recent n.ts)) &&
        decide ((e.2.thompson.observations.length, e.2.thompson.posteriorBias.length,
          e.2.thompson.zeroRevenueStreak) = (1, 1, 3)) &&
        decide (-e.2.pid.integralClamp ≤ e.2.pid.integralClamp) &&
        (e.2.pid.kp.isFinite && e.2.pid.ki.isFinite && e.2.pid.ewmaError.isFinite &&
          e.2.pid.integralError.isFinite && e.2.pid.integralClamp.isFinite) &&
        (run e.2 activeCalls).any fun g => decide (g.pid.ki.abs *
          RustFloat.maxF64 g.pid.integralError.abs g.pid.integralClamp < Pid.f64Max)) = true := by
    decide +kernel
  obtain ⟨⟨s, f⟩, hstate, hchecks⟩ := (Option.any_eq_true _ _).mp hstored
  simp only [Bool.and_eq_true, decide_eq_true_eq, List.all_eq_true] at hchecks
  obtain ⟨⟨⟨⟨⟨hobserved, hnudged⟩, hsizes⟩, hordered⟩, ⟨⟨⟨hkp, hki⟩, hewma⟩, hintegral⟩, hclamp⟩,
    hbounded⟩ := hchecks
  obtain ⟨g, hrun, hbounded⟩ := (Option.any_eq_true _ _).mp hbounded
  obtain ⟨hload, hf⟩ := storedState_loaded hstate
  have hstreak : f.thompson.zeroRevenueStreak = 3 := congrArg (fun c => c.2.2) hsizes
  have hsafe : Safe f ((activeCalls ++ [laterCall]).countP Call.isUpdate) := by
    refine ⟨hordered, hobserved, hnudged, ?_⟩
    rw [hstreak]
    decide
  have hlog : (1.0 : Float) ≤ 2.0 := by decide +kernel
  obtain ⟨g₁, g', r, hrun₁, hstep, hrange⟩ := loaded_state_serves (fun _ _ => hlog)
    (fun y _ => storedPow_not_nan y) (.inl ⟨_, hload⟩) hf activeCalls_timely hsafe
  cases hrun.symm.trans hrun₁
  exact ⟨s, f, g, g', r, hstate, hsizes, hrun, hstep,
    hrange ⟨hkp, hki, hewma, hintegral, hclamp⟩ (.inr (of_decide_eq_true hbounded))⟩

/-- An accepted row whose clamp is below zero ends the thread at the first multiplier. -/
theorem reversed_clamp_ends_the_thread :
    ∃ s f, rehydrateFromRows ControllerState.new [storedRow reversedState] = .ok s ∧
      s.feeStates.get? "1x1x1" = some f ∧ multiplierCall.Timely ∧
      run f [multiplierCall] = none := by
  have hstored :
      ((storedState reversedState).any fun e => (run e.2 [multiplierCall]).isNone) = true := by
    decide +kernel
  obtain ⟨⟨s, f⟩, hstate, hnone⟩ := (Option.any_eq_true _ _).mp hstored
  obtain ⟨hload, hf⟩ := storedState_loaded hstate
  exact ⟨s, f, hload, hf, multiplierCall_timely, Option.isNone_iff_eq_none.mp hnone⟩

end StoredRuns

end FeeStateLoading
