import Mathlib.Algebra.Order.Field.Rat
import Mathlib.Data.Rat.Floor
import Mathlib.Tactic.NormNum
import RevenueOps.Capex
import RevenueOps.ProportionalCut

/-! The budgets of one cycle in exact arithmetic: none is negative, together they stay within the
envelope, and a channel that has spent more is granted no more. -/
namespace Capex

open Arithmetic KeyedTable ProportionalCut
open RustFloat (clampF64)

section Rounding

theorem truncate_of_nonneg {x : ℚ} (h : 0 ≤ x) : truncate x = ⌊x⌋ := if_pos h

theorem truncate_mono {x y : ℚ} (h : x ≤ y) : truncate x ≤ truncate y := by
  unfold truncate
  split <;> rename_i hx
  · rw [if_pos (hx.trans h)]
    exact Int.floor_le_floor h
  · split <;> rename_i hy
    · have hceil : ⌈x⌉ ≤ 0 := Int.ceil_le.mpr (by simpa using (not_le.mp hx).le)
      exact hceil.trans (Int.floor_nonneg.mpr hy)
    · exact Int.ceil_le_ceil h

theorem truncate_cast (n : ℤ) : truncate (n : ℚ) = n := by
  unfold truncate
  split
  · exact Int.floor_intCast n
  · exact Int.ceil_intCast n

theorem toI64_eq (x : ℚ) : F64.toI64 x =
    max (-9223372036854775808) (min 9223372036854775807 (truncate x)) := rfl

theorem roundsDown_toI64 : RoundsDown (F64.toI64 : ℚ → ℤ) where
  mono h := by
    have htrunc := truncate_mono h
    rw [toI64_eq, toI64_eq]
    omega
  nonneg h := by
    have hfloor := Int.floor_nonneg.mpr h
    rw [toI64_eq, truncate_of_nonneg h]
    omega
  le_self {x} h := by
    have hfloor := Int.floor_nonneg.mpr h
    have hle : (F64.toI64 x : ℤ) ≤ ⌊x⌋ := by
      rw [toI64_eq, truncate_of_nonneg h]
      omega
    exact (Int.cast_le.mpr hle).trans (Int.floor_le x)

theorem toI64_whole (x : ℚ) : F64.toI64 ((F64.toI64 x : ℤ) : ℚ) = F64.toI64 x := by
  rw [toI64_eq ((F64.toI64 x : ℤ) : ℚ), truncate_cast, toI64_eq]
  omega

end Rounding

section Multipliers

variable {prof : ChannelProfile ℚ}

theorem clampF64_nonneg {x lo hi : ℚ} (hlo : 0 ≤ lo) (hhi : 0 ≤ hi) : 0 ≤ clampF64 x lo hi := by
  unfold clampF64
  split_ifs with h
  · exact hlo
  · exact hhi
  · linarith

theorem roiMultiplier_nonneg : 0 ≤ roiMultiplier prof := by
  by_cases h : prof.marginalRoiReliable = true
  · rw [roiMultiplier, if_pos h]
    exact clampF64_nonneg (by norm_num) (by norm_num)
  · rw [roiMultiplier, if_neg h]
    norm_num

theorem efficiencyMultiplier_nonneg (chId : String) (fleet : Option (FleetEfficiency ℚ))
    (prof : Option (ChannelProfile ℚ)) : 0 ≤ efficiencyMultiplier chId fleet prof := by
  unfold efficiencyMultiplier
  split
  · norm_num
  · rename_i fleet
    split
    · norm_num
    · rename_i channelEff _
      split_ifs with hdead hgate hmedian hrpsd
      · norm_num
      · norm_num
      · norm_num
      · have hpos : 0 < fleet.medianRpsd := by
          have h := not_le.mp hmedian
          norm_num at h
          exact h
        have hratio : 1 ≤ channelEff.rpsd / fleet.medianRpsd := (one_le_div hpos).mpr hrpsd
        have hbonus : (0 : ℚ) ≤ channelEff.rpsd / fleet.medianRpsd - 1.0 := by
          norm_num
          exact hratio
        exact add_nonneg (by norm_num)
          (le_min (by norm_num) (mul_nonneg hbonus (by norm_num)))
      · exact le_max_of_le_left (by norm_num)

end Multipliers

section ChannelBudget

variable {prof : ChannelProfile ℚ} {cfg : CapexConfig ℚ} {capex capex' : ℤ}

/-- What a tier grants from a channel's spend on: less for more, never below zero, the rest of the
grant untouched. -/
structure GrantsLess (g g' : TierGrant) : Prop where
  tier : g'.tier = g.tier
  tierPpm : g'.tierPpm = g.tierPpm
  priority : g'.priority = g.priority
  nonneg : 0 ≤ g'.rawBudgetMsat
  le : g'.rawBudgetMsat ≤ g.rawBudgetMsat

theorem provenBudgetMsat_antitone (h : capex ≤ capex') :
    provenBudgetMsat prof capex' cfg ≤ provenBudgetMsat prof capex cfg := by
  unfold provenBudgetMsat
  omega

theorem bootstrapRemainingMsat_antitone (h : capex ≤ capex') :
    bootstrapRemainingMsat prof capex' cfg ≤ bootstrapRemainingMsat prof capex cfg := by
  unfold bootstrapRemainingMsat
  omega

theorem tierGrant_cases (h : capex ≤ capex') :
    (tierGrant prof capex cfg = none ∧ tierGrant prof capex' cfg = none) ∨
      ∃ g g', tierGrant prof capex cfg = some g ∧ tierGrant prof capex' cfg = some g' ∧
        GrantsLess g g' := by
  have hproven : 0 ≤ provenBudgetMsat prof capex' cfg := le_max_right _ _
  have hboot : 0 ≤ bootstrapRemainingMsat prof capex' cfg := le_max_right _ _
  have hp : provenBudgetMsat prof capex' cfg ≤ provenBudgetMsat prof capex cfg :=
    provenBudgetMsat_antitone h
  have hb : bootstrapRemainingMsat prof capex' cfg ≤ bootstrapRemainingMsat prof capex cfg :=
    bootstrapRemainingMsat_antitone h
  unfold tierGrant
  by_cases hrich : 100 * msatPerSat < contribution30dMsat prof
  · right
    simp only [if_pos hrich]
    exact ⟨_, _, rfl, rfl, rfl, rfl, rfl, hproven, hp⟩
  · simp only [if_neg hrich]
    by_cases hforwards : 5 < prof.totalForwardCount
    · right
      simp only [if_pos hforwards]
      refine ⟨_, _, rfl, rfl, rfl, rfl, rfl, ?_, ?_⟩
      · dsimp only
        split <;> omega
      · dsimp only
        split <;> split <;> omega
    · simp only [if_neg hforwards]
      by_cases hold : cfg.capexGraceDays ≤ prof.daysOpen
      · right
        simp only [if_pos hold]
        exact ⟨_, _, rfl, rfl, rfl, rfl, rfl, hboot, hb⟩
      · left
        simp only [if_neg hold, and_self]

variable {chId : String} {bleeder : Option String} {fleet : Option (FleetEfficiency ℚ)}
  {rate : Option ℚ}

structure Tightens (b b' : ChannelCapexBudget ℚ) : Prop where
  priority : b'.priorityClass = b.priorityClass
  nonneg : 0 ≤ b'.budgetMsat
  le : b'.budgetMsat ≤ b.budgetMsat
  whole : F64.toI64 (b'.budgetMsat : ℚ) = b'.budgetMsat

theorem tightens_blocked (b : ChannelCapexBudget ℚ) (h : b.budgetMsat = 0) : Tightens b b := by
  constructor
  · rfl
  · rw [h]
  · rfl
  · rw [h, toI64_eq, truncate_cast]
    rfl

theorem computeChannelBudget_tightens (h : capex ≤ capex') :
    Tightens (computeChannelBudget chId prof capex bleeder cfg fleet rate)
      (computeChannelBudget chId prof capex' bleeder cfg fleet rate) := by
  unfold computeChannelBudget
  by_cases hzombie : prof.classification = "zombie"
  · simp only [if_pos hzombie]
    exact tightens_blocked _ rfl
  simp only [if_neg hzombie]
  by_cases hhard : bleeder = some "hard"
  · simp only [if_pos hhard]
    exact tightens_blocked _ rfl
  simp only [if_neg hhard]
  by_cases hgrace : prof.daysOpen < cfg.capexGraceDays ∧ prof.totalContributionMsat = 0
  · simp only [if_pos hgrace]
    exact tightens_blocked _ rfl
  simp only [if_neg hgrace]
  rcases tierGrant_cases h with ⟨hnone, hnone'⟩ | ⟨g, g', hg, hg', hless⟩
  · rw [hnone, hnone']
    exact tightens_blocked _ rfl
  · rw [hg, hg']
    have hroi : 0 ≤ roiMultiplier prof := roiMultiplier_nonneg
    have heff := efficiencyMultiplier_nonneg chId fleet (some prof)
    have hraw : (0 : ℚ) ≤ g'.rawBudgetMsat := Int.cast_nonneg hless.nonneg
    have hle : (g'.rawBudgetMsat : ℚ) ≤ g.rawBudgetMsat := Int.cast_le.mpr hless.le
    refine ⟨hless.priority, ?_, ?_, toI64_whole _⟩
    · exact roundsDown_toI64.nonneg (mul_nonneg (mul_nonneg hraw hroi) heff)
    · exact roundsDown_toI64.mono
        (mul_le_mul_of_nonneg_right (mul_le_mul_of_nonneg_right hle hroi) heff)

theorem computeChannelBudget_blocked (h : prof.classification = "zombie" ∨ bleeder = some "hard") :
    (computeChannelBudget chId prof capex bleeder cfg fleet rate).budgetMsat = 0 := by
  unfold computeChannelBudget
  by_cases hzombie : prof.classification = "zombie"
  · rw [if_pos hzombie]
    rfl
  · rw [if_neg hzombie, if_pos (h.resolve_left hzombie)]
    rfl

end ChannelBudget

section Demands

def Budgets.demands (b : Budgets ℚ) : List ℤ :=
  b.channels.rows.map (fun e => e.2.budgetMsat) ++ [b.explorationMsat, b.tacticalMsat]

variable {b : Budgets ℚ} {envelope : ℤ}

theorem totalMsat_eq (b : Budgets ℚ) : b.totalMsat = b.demands.sum := by
  rw [Budgets.totalMsat, channelTotalMsat, Budgets.demands, List.sum_append, List.sum_cons,
    List.sum_singleton, add_assoc]

theorem demands_map (f : ℤ → ℤ) : (b.map f).demands = b.demands.map f := by
  simp [Budgets.demands, Budgets.map, mapBudgets]

theorem map_id_eq : (b.map fun budget => budget) = b := by
  have hrows : mapBudgets (fun budget => budget) b.channels = b.channels := by
    apply Table.ext
    exact List.map_id' b.channels.rows
  rw [Budgets.map, hrows]

theorem enforce_eq (h0 : 0 ≤ envelope) :
    b.enforce envelope = b.map (share (F64.toI64 : ℚ → ℤ) envelope b.totalMsat) := by
  by_cases h : envelope < b.totalMsat
  · have hshare : share (F64.toI64 : ℚ → ℤ) envelope b.totalMsat =
        fun budget : ℤ => F64.toI64 ((budget : ℚ) * (envelope / b.totalMsat)) := by
      funext budget
      exact share_of_lt h
    rw [Budgets.enforce, if_pos ⟨h, h0.trans_lt h⟩, hshare]
    rfl
  · have hshare : share (F64.toI64 : ℚ → ℤ) envelope b.totalMsat = fun budget => budget := by
      funext budget
      exact share_of_le (not_lt.mp h)
    rw [Budgets.enforce, if_neg (fun hcut => h hcut.1), hshare, map_id_eq]

theorem enforce_total_le (h0 : 0 ≤ envelope) (hb : ∀ d ∈ b.demands, 0 ≤ d) :
    (b.enforce envelope).totalMsat ≤ envelope := by
  rw [totalMsat_eq, enforce_eq h0, demands_map, totalMsat_eq]
  exact sum_share_le roundsDown_toI64 h0 _ hb

theorem get_mapBudgets (f : ℤ → ℤ) (m : Dict String (ChannelCapexBudget ℚ)) (chId : String) :
    Dict.get? (mapBudgets f m) chId =
      (Dict.get? m chId).map fun b => { b with budgetMsat := f b.budgetMsat } :=
  Dict.get_of_rows_map
    (f := fun _ (b : ChannelCapexBudget ℚ) => { b with budgetMsat := f b.budgetMsat }) rfl

end Demands

section Envelope

variable {cfg : CapexConfig ℚ} {raw raw' : ℤ}

theorem envelopeMsat_nonneg (h : 0 ≤ raw) : 0 ≤ envelopeMsat cfg raw := by
  have hweek : 0 < cfg.weeklyBudgetSats →
      0 ≤ F64.toI64 ((F64.ofInt cfg.weeklyBudgetSats : ℚ) * F64.ofInt msatPerSat * (30.0 / 7.0)) :=
    fun hpos => roundsDown_toI64.nonneg (mul_nonneg
      (mul_nonneg (Int.cast_nonneg hpos.le) (Int.cast_nonneg (by decide))) (by norm_num))
  simp only [envelopeMsat, msatPerSat] at hweek ⊢
  split_ifs <;> omega

theorem envelopeMsat_mono (h : raw ≤ raw') : envelopeMsat cfg raw ≤ envelopeMsat cfg raw' := by
  simp only [envelopeMsat]
  split_ifs <;> omega

theorem envelopeMsat_configured (h : 0 < cfg.capexGlobalEnvelopeSats) :
    envelopeMsat cfg raw ≤ cfg.capexGlobalEnvelopeSats * 1000 := by
  simp only [envelopeMsat, msatPerSat, if_pos h]
  split_ifs <;> omega

theorem envelopeMsat_daily (h : 0 < cfg.dailyBudgetSats) :
    envelopeMsat cfg raw ≤ 30 * (cfg.dailyBudgetSats * 1000) := by
  simp only [envelopeMsat, msatPerSat, if_pos h]
  split_ifs <;> omega

theorem envelopeMsat_weekly (h : 0 < cfg.weeklyBudgetSats) :
    (envelopeMsat cfg raw : ℚ) ≤ 30 / 7 * (cfg.weeklyBudgetSats * 1000) := by
  have hcut : envelopeMsat cfg raw ≤
      F64.toI64 ((F64.ofInt cfg.weeklyBudgetSats : ℚ) * F64.ofInt msatPerSat * (30.0 / 7.0)) := by
    simp only [envelopeMsat, if_pos h]
    exact min_le_right _ _
  have hweekly : (0 : ℚ) ≤ cfg.weeklyBudgetSats := Int.cast_nonneg h.le
  have hround := roundsDown_toI64.le_self (x := (cfg.weeklyBudgetSats : ℚ) * (msatPerSat : ℤ) *
    (30.0 / 7.0)) (mul_nonneg (mul_nonneg hweekly (Int.cast_nonneg (by decide))) (by norm_num))
  calc (envelopeMsat cfg raw : ℚ)
      ≤ (F64.toI64 ((cfg.weeklyBudgetSats : ℚ) * (msatPerSat : ℤ) * (30.0 / 7.0)) : ℤ) :=
        Int.cast_le.mpr hcut
    _ ≤ (cfg.weeklyBudgetSats : ℚ) * (msatPerSat : ℤ) * (30.0 / 7.0) := hround
    _ = 30 / 7 * (cfg.weeklyBudgetSats * 1000) := by
        norm_num [msatPerSat]
        ring

end Envelope

section Fleet

variable (evidence : CapexEvidence ℚ) (cfg : CapexConfig ℚ)

theorem foldl_tallyChannel (l : List (String × ChannelProfile ℚ)) (t : FleetTally ℚ) :
    (l.foldl (tallyChannel evidence cfg) t).channelBudgets =
      l.foldl (fun m e => Dict.insert m e.1 (evidence.budgetOf cfg e.1 e.2)) t.channelBudgets := by
  induction l generalizing t with
  | nil => rfl
  | cons e l ih => exact ih _

theorem tallyFleet_rows : (tallyFleet evidence cfg).channelBudgets.rows =
    evidence.channels.rows.map fun e => (e.1, evidence.budgetOf cfg e.1 e.2) := by
  rw [tallyFleet, foldl_tallyChannel]
  exact Dict.rows_foldl_insert evidence.channels.rows Prod.fst
    (fun e => evidence.budgetOf cfg e.1 e.2) Table.empty evidence.channels.nodup fun _ _ => rfl

def demandOf (chId : String) (prof : ChannelProfile ℚ) : ChannelCapexBudget ℚ :=
  let budget := evidence.budgetOf cfg chId prof
  if dbDegraded evidence then { budget with budgetMsat := 0 } else budget

def allocated : Budgets ℚ := rawBudgets evidence cfg (tallyFleet evidence cfg)

theorem allocated_rows : (allocated evidence cfg).channels.rows =
    evidence.channels.rows.map fun e => (e.1, demandOf evidence cfg e.1 e.2) := by
  by_cases h : dbDegraded evidence = true
  · simp only [allocated, rawBudgets, demandOf, if_pos h, Budgets.map, mapBudgets, tallyFleet_rows,
      List.map_map]
    rfl
  · simp only [allocated, rawBudgets, demandOf, if_neg h, tallyFleet_rows]

theorem demandOf_nonneg (chId : String) (prof : ChannelProfile ℚ) :
    0 ≤ (demandOf evidence cfg chId prof).budgetMsat := by
  unfold demandOf
  split
  · exact le_rfl
  · exact (computeChannelBudget_tightens le_rfl).nonneg

theorem applyCategorySpendRemaining_nonneg (budget : ℤ) (summary : SpendSummary)
    (category : String) : 0 ≤ applyCategorySpendRemaining budget summary category :=
  le_max_right _ _

theorem explorationBudgetMsat_nonneg (t : FleetTally ℚ) (summary : SpendSummary) :
    0 ≤ explorationBudgetMsat evidence cfg t summary := by
  unfold explorationBudgetMsat
  split
  · exact applyCategorySpendRemaining_nonneg _ _ _
  · exact mul_nonneg (le_max_right _ _) (by decide)

theorem allocated_explorationMsat_nonneg : 0 ≤ (allocated evidence cfg).explorationMsat := by
  unfold allocated rawBudgets
  split
  · exact le_rfl
  · exact explorationBudgetMsat_nonneg _ _ _ _

theorem allocated_tacticalMsat_nonneg : 0 ≤ (allocated evidence cfg).tacticalMsat := by
  unfold allocated rawBudgets
  split
  · exact le_rfl
  · exact applyCategorySpendRemaining_nonneg _ _ _

theorem allocated_nonneg : ∀ d ∈ (allocated evidence cfg).demands, 0 ≤ d := by
  intro d hd
  rw [Budgets.demands, allocated_rows, List.map_map] at hd
  rcases List.mem_append.mp hd with hd | hd
  · obtain ⟨e, _, rfl⟩ := List.mem_map.mp hd
    exact demandOf_nonneg evidence cfg e.1 e.2
  · rcases List.mem_cons.mp hd with rfl | hd
    · exact allocated_explorationMsat_nonneg evidence cfg
    · rw [List.mem_singleton.mp hd]
      exact allocated_tacticalMsat_nonneg evidence cfg

theorem allocated_total_nonneg : 0 ≤ (allocated evidence cfg).totalMsat := by
  rw [totalMsat_eq]
  exact List.sum_nonneg (allocated_nonneg evidence cfg)

def envelopeOf : ℤ := envelopeMsat cfg (allocated evidence cfg).totalMsat

theorem envelopeOf_nonneg : 0 ≤ envelopeOf evidence cfg :=
  envelopeMsat_nonneg (allocated_total_nonneg evidence cfg)

def granted (demand : ℤ) : ℤ :=
  share (F64.toI64 : ℚ → ℤ) (envelopeOf evidence cfg) (allocated evidence cfg).totalMsat demand

theorem computeAllocations_budgets :
    (allocated evidence cfg).enforce (envelopeOf evidence cfg) =
      (allocated evidence cfg).map (granted evidence cfg) :=
  enforce_eq (envelopeOf_nonneg evidence cfg)

theorem channelBudget_granted {chId : String} {prof : ChannelProfile ℚ}
    (h : Dict.get? evidence.channels chId = some prof) :
    (computeAllocations evidence cfg).channelBudget chId =
      { demandOf evidence cfg chId prof with
        budgetMsat := granted evidence cfg (demandOf evidence cfg chId prof).budgetMsat } := by
  change (Dict.get? ((allocated evidence cfg).enforce (envelopeOf evidence cfg)).channels
    chId).getD _ = _
  rw [computeAllocations_budgets, Budgets.map, get_mapBudgets,
    Dict.get_of_rows_map (allocated_rows evidence cfg), h]
  rfl

theorem channelBudget_unknown {chId : String} (h : Dict.get? evidence.channels chId = none) :
    (computeAllocations evidence cfg).channelBudget chId = .blocked chId := by
  change (Dict.get? ((allocated evidence cfg).enforce (envelopeOf evidence cfg)).channels
    chId).getD _ = _
  rw [computeAllocations_budgets, Budgets.map, get_mapBudgets,
    Dict.get_of_rows_map (allocated_rows evidence cfg), h]
  rfl

end Fleet

section Spend

variable {evidence : CapexEvidence ℚ} {cfg : CapexConfig ℚ} {chId : String} {sats : ℤ}

def CapexEvidence.spendSats (evidence : CapexEvidence ℚ) (chId : String) : ℤ :=
  ((evidence.capexByChannelSats.getD Table.empty).get? chId).getD 0

def CapexEvidence.withSpend (evidence : CapexEvidence ℚ) (chId : String) (sats : ℤ) :
    CapexEvidence ℚ :=
  { evidence with
    capexByChannelSats := evidence.capexByChannelSats.map fun m => m.insert chId sats }

theorem dbDegraded_withSpend : dbDegraded (evidence.withSpend chId sats) = dbDegraded evidence := by
  simp [dbDegraded, CapexEvidence.withSpend]

theorem capexMsat_withSpend_of_ne {other : String} (h : chId ≠ other) :
    (evidence.withSpend chId sats).capexMsat other = evidence.capexMsat other := by
  unfold CapexEvidence.capexMsat CapexEvidence.withSpend
  cases evidence.capexByChannelSats with
  | none => rfl
  | some m => simp only [Option.map_some, Option.getD_some, Dict.get_insert_ne h]

/-- A larger spend; where the spends could not be read it is not seen. -/
theorem capexMsat_le_withSpend (h : evidence.spendSats chId ≤ sats) :
    evidence.capexMsat chId ≤ (evidence.withSpend chId sats).capexMsat chId := by
  unfold CapexEvidence.capexMsat CapexEvidence.withSpend
  unfold CapexEvidence.spendSats at h
  cases hm : evidence.capexByChannelSats with
  | none => rfl
  | some m =>
    rw [hm] at h
    simp only [Option.map_some, Option.getD_some, Dict.get_insert_self, msatPerSat] at h ⊢
    omega

theorem demandOf_withSpend_of_ne {other : String} (h : chId ≠ other) (prof : ChannelProfile ℚ) :
    demandOf (evidence.withSpend chId sats) cfg other prof = demandOf evidence cfg other prof := by
  rw [demandOf, demandOf, dbDegraded_withSpend, CapexEvidence.budgetOf, CapexEvidence.budgetOf,
    capexMsat_withSpend_of_ne h]
  rfl

theorem demandOf_tightens (h : evidence.spendSats chId ≤ sats) (prof : ChannelProfile ℚ) :
    Tightens (demandOf evidence cfg chId prof)
      (demandOf (evidence.withSpend chId sats) cfg chId prof) := by
  have ht : Tightens (evidence.budgetOf cfg chId prof)
      ((evidence.withSpend chId sats).budgetOf cfg chId prof) :=
    computeChannelBudget_tightens (capexMsat_le_withSpend h)
  rw [demandOf, demandOf, dbDegraded_withSpend]
  by_cases hdb : dbDegraded evidence = true
  · simp only [if_pos hdb]
    exact ⟨ht.priority, le_rfl, le_rfl, by rw [toI64_eq, truncate_cast]; rfl⟩
  · simp only [if_neg hdb]
    exact ht

def FleetTally.fleetOnly (t : FleetTally ℚ) : FleetTally ℚ :=
  { t with channelBudgets := Table.empty }

theorem foldl_fleetOnly (l : List (String × ChannelProfile ℚ)) (t t' : FleetTally ℚ)
    (h : t'.fleetOnly = t.fleetOnly) :
    (l.foldl (tallyChannel (evidence.withSpend chId sats) cfg) t').fleetOnly =
      (l.foldl (tallyChannel evidence cfg) t).fleetOnly := by
  induction l generalizing t t' with
  | nil => exact h
  | cons e l ih =>
    apply ih
    simp only [FleetTally.fleetOnly, FleetTally.mk.injEq, true_and] at h
    obtain ⟨hcontribution, hcount, hcapacity, htotal, hdepleted⟩ := h
    simp only [FleetTally.fleetOnly, tallyChannel, hcontribution, hcount, hcapacity, htotal,
      hdepleted]
    rfl

/-- The spends of the channels have no part in what the walk says about the fleet. -/
theorem tallyFleet_withSpend (evidence : CapexEvidence ℚ) (cfg : CapexConfig ℚ) (chId : String)
    (sats : ℤ) :
    (tallyFleet (evidence.withSpend chId sats) cfg).fleetOnly =
      (tallyFleet evidence cfg).fleetOnly := foldl_fleetOnly _ _ _ rfl

theorem explorationMsat_withSpend : (allocated (evidence.withSpend chId sats) cfg).explorationMsat =
    (allocated evidence cfg).explorationMsat := by
  have h := congrArg FleetTally.totalFleetContributionMsat
    (tallyFleet_withSpend evidence cfg chId sats)
  change (tallyFleet _ cfg).totalFleetContributionMsat = _ at h
  rw [allocated, allocated, rawBudgets, rawBudgets, dbDegraded_withSpend]
  split
  · rfl
  · simp only [explorationBudgetMsat, h]
    rfl

theorem tacticalMsat_withSpend : (allocated (evidence.withSpend chId sats) cfg).tacticalMsat =
    (allocated evidence cfg).tacticalMsat := by
  have h := congrArg FleetTally.totalFleetContributionMsat
    (tallyFleet_withSpend evidence cfg chId sats)
  change (tallyFleet _ cfg).totalFleetContributionMsat = _ at h
  rw [allocated, allocated, rawBudgets, rawBudgets, dbDegraded_withSpend]
  split
  · rfl
  · simp only [tacticalBudgetMsat, h]
    rfl

theorem total_withSpend (cfg : CapexConfig ℚ) (sats : ℤ) {prof : ChannelProfile ℚ}
    (h : Dict.get? evidence.channels chId = some prof) :
    ∃ rest, 0 ≤ rest ∧
      (allocated evidence cfg).totalMsat = (demandOf evidence cfg chId prof).budgetMsat + rest ∧
      (allocated (evidence.withSpend chId sats) cfg).totalMsat =
        (demandOf (evidence.withSpend chId sats) cfg chId prof).budgetMsat + rest := by
  obtain ⟨before, after, hrows, hother⟩ := Dict.rows_split h
  have hsame : ∀ e ∈ before ++ after,
      (demandOf (evidence.withSpend chId sats) cfg e.1 e.2).budgetMsat =
        (demandOf evidence cfg e.1 e.2).budgetMsat := fun e he => by
    rw [demandOf_withSpend_of_ne (hother e he).symm]
  have hsum := congrArg List.sum (List.map_congr_left hsame)
  have hpos : 0 ≤ ((before ++ after).map fun e => (demandOf evidence cfg e.1 e.2).budgetMsat).sum :=
    List.sum_nonneg fun d hd => by
      obtain ⟨e, _, rfl⟩ := List.mem_map.mp hd
      exact demandOf_nonneg evidence cfg e.1 e.2
  have hexploration := allocated_explorationMsat_nonneg evidence cfg
  have htactical := allocated_tacticalMsat_nonneg evidence cfg
  refine ⟨((before ++ after).map fun e => (demandOf evidence cfg e.1 e.2).budgetMsat).sum +
    (allocated evidence cfg).explorationMsat +
      (allocated evidence cfg).tacticalMsat, by omega, ?_, ?_⟩
  · simp only [Budgets.totalMsat, channelTotalMsat, allocated_rows, hrows, List.map_append,
      List.map_cons, List.sum_append, List.sum_cons, List.map_map, Function.comp_def]
    ring
  · rw [← hsum]
    simp only [Budgets.totalMsat, channelTotalMsat, allocated_rows, List.map_append,
      List.sum_append, List.map_map, Function.comp_def,
      explorationMsat_withSpend, tacticalMsat_withSpend]
    have hrows' : (evidence.withSpend chId sats).channels.rows = before ++ (chId, prof) :: after :=
      hrows
    rw [hrows']
    simp only [List.map_append, List.map_cons, List.sum_append, List.sum_cons]
    ring

theorem channelBudget_withSpend_le (h : evidence.spendSats chId ≤ sats) :
    ((computeAllocations (evidence.withSpend chId sats) cfg).channelBudget chId).budgetMsat ≤
      ((computeAllocations evidence cfg).channelBudget chId).budgetMsat := by
  cases hprof : Dict.get? evidence.channels chId with
  | none =>
    have hprof' : Dict.get? (evidence.withSpend chId sats).channels chId = none := hprof
    rw [channelBudget_unknown _ _ hprof, channelBudget_unknown _ _ hprof']
  | some prof =>
    have hprof' : Dict.get? (evidence.withSpend chId sats).channels chId = some prof := hprof
    have ht : Tightens (demandOf evidence cfg chId prof)
        (demandOf (evidence.withSpend chId sats) cfg chId prof) := demandOf_tightens h prof
    obtain ⟨rest, hrest, htotal, htotal'⟩ := total_withSpend cfg sats hprof
    have henvelope : envelopeOf (evidence.withSpend chId sats) cfg ≤ envelopeOf evidence cfg := by
      apply envelopeMsat_mono
      rw [htotal, htotal']
      exact add_le_add_left ht.le rest
    rw [channelBudget_granted _ _ hprof, channelBudget_granted _ _ hprof']
    simp only [granted, htotal, htotal']
    exact share_mono roundsDown_toI64 (envelopeOf_nonneg _ _) henvelope hrest ht.nonneg ht.whole
      ht.le

end Spend

section Allocations

variable (evidence : CapexEvidence ℚ) (cfg : CapexConfig ℚ)

def CapexEvidence.Excluded (evidence : CapexEvidence ℚ) (chId : String) : Prop :=
  (∃ prof, Dict.get? evidence.channels chId = some prof ∧ prof.classification = "zombie") ∨
    Dict.get? evidence.bleederStatus chId = some "hard"

theorem granted_zero : granted evidence cfg 0 = 0 :=
  share_zero roundsDown_toI64 (envelopeOf_nonneg evidence cfg)

theorem granted_nonneg {demand : ℤ} (h : 0 ≤ demand) : 0 ≤ granted evidence cfg demand :=
  share_nonneg roundsDown_toI64 (envelopeOf_nonneg evidence cfg) h

theorem channelBudget_nonneg (chId : String) :
    0 ≤ ((computeAllocations evidence cfg).channelBudget chId).budgetMsat := by
  cases h : Dict.get? evidence.channels chId with
  | none =>
    rw [channelBudget_unknown _ _ h]
    exact le_rfl
  | some prof =>
    rw [channelBudget_granted _ _ h]
    exact granted_nonneg _ _ (demandOf_nonneg evidence cfg chId prof)

theorem channelBudget_excluded {chId : String} (h : evidence.Excluded chId) :
    ((computeAllocations evidence cfg).channelBudget chId).budgetMsat = 0 := by
  cases hprof : Dict.get? evidence.channels chId with
  | none =>
    rw [channelBudget_unknown _ _ hprof]
    rfl
  | some prof =>
    have hblocked : prof.classification = "zombie" ∨
        Dict.get? evidence.bleederStatus chId = some "hard" := by
      rcases h with ⟨q, hq, hzombie⟩ | hhard
      · rw [hprof] at hq
        cases hq
        exact .inl hzombie
      · exact .inr hhard
    have hzero : (demandOf evidence cfg chId prof).budgetMsat = 0 := by
      unfold demandOf
      split
      · rfl
      · exact computeChannelBudget_blocked hblocked
    rw [channelBudget_granted _ _ hprof, hzero]
    exact granted_zero evidence cfg

theorem degraded_grants_nothing (h : dbDegraded evidence = true) :
    (∀ chId, ((computeAllocations evidence cfg).channelBudget chId).budgetMsat = 0) ∧
      (computeAllocations evidence cfg).fleetExplorationBudgetMsat = 0 ∧
      (computeAllocations evidence cfg).tacticalBudgetMsat = 0 := by
  refine ⟨fun chId => ?_, ?_, ?_⟩
  · cases hprof : Dict.get? evidence.channels chId with
    | none =>
      rw [channelBudget_unknown _ _ hprof]
      rfl
    | some prof =>
      have hzero : (demandOf evidence cfg chId prof).budgetMsat = 0 := by
        rw [demandOf, if_pos h]
      rw [channelBudget_granted _ _ hprof, hzero]
      exact granted_zero evidence cfg
  · change ((allocated evidence cfg).enforce (envelopeOf evidence cfg)).explorationMsat = 0
    have hzero : (allocated evidence cfg).explorationMsat = 0 := by
      rw [allocated, rawBudgets, if_pos h]
      rfl
    rw [computeAllocations_budgets, Budgets.map, hzero]
    exact granted_zero evidence cfg
  · change ((allocated evidence cfg).enforce (envelopeOf evidence cfg)).tacticalMsat = 0
    have hzero : (allocated evidence cfg).tacticalMsat = 0 := by
      rw [allocated, rawBudgets, if_pos h]
      rfl
    rw [computeAllocations_budgets, Budgets.map, hzero]
    exact granted_zero evidence cfg

theorem channelPriority_withSpend {chId : String} {sats : ℤ} (h : evidence.spendSats chId ≤ sats) :
    ((computeAllocations (evidence.withSpend chId sats) cfg).channelBudget chId).priorityClass =
      ((computeAllocations evidence cfg).channelBudget chId).priorityClass := by
  cases hprof : Dict.get? evidence.channels chId with
  | none =>
    have hprof' : Dict.get? (evidence.withSpend chId sats).channels chId = none := hprof
    rw [channelBudget_unknown _ _ hprof, channelBudget_unknown _ _ hprof']
  | some prof =>
    have hprof' : Dict.get? (evidence.withSpend chId sats).channels chId = some prof := hprof
    rw [channelBudget_granted _ _ hprof, channelBudget_granted _ _ hprof']
    exact (demandOf_tightens h prof).priority

theorem fleetPriority_withSpend (chId : String) (sats : ℤ) :
    (computeAllocations (evidence.withSpend chId sats) cfg).priorityClass =
      (computeAllocations evidence cfg).priorityClass := by
  have h := tallyFleet_withSpend evidence cfg chId sats
  change detectPriorityClass (hasHardBleeders (tallyFleet _ cfg).fleetOnly)
    (tallyFleet _ cfg).fleetOnly.hasDepletedEarners _ = _
  rw [h]
  rfl

/-- The laws of the allocations: no budget is negative and together they stay within an envelope
that is within every limit that is set; without the history of spends there are none; zombies and
hard bleeders get nothing; and a channel's own spend never earns it more. -/
theorem allocations_respect_envelope_and_spend (evidence : CapexEvidence ℚ)
    (cfg : CapexConfig ℚ) :
    let a := computeAllocations evidence cfg
    ((∀ chId, 0 ≤ (a.channelBudget chId).budgetMsat) ∧ 0 ≤ a.fleetExplorationBudgetMsat ∧
      0 ≤ a.tacticalBudgetMsat) ∧
    channelTotalMsat a.channelBudgets + a.fleetExplorationBudgetMsat + a.tacticalBudgetMsat ≤
      a.globalEnvelopeMsat ∧
    (0 < cfg.capexGlobalEnvelopeSats →
      a.globalEnvelopeMsat ≤ cfg.capexGlobalEnvelopeSats * 1000) ∧
    (0 < cfg.dailyBudgetSats → a.globalEnvelopeMsat ≤ 30 * (cfg.dailyBudgetSats * 1000)) ∧
    (0 < cfg.weeklyBudgetSats →
      (a.globalEnvelopeMsat : ℚ) ≤ 30 / 7 * (cfg.weeklyBudgetSats * 1000)) ∧
    (a.dbDegraded = true → (∀ chId, (a.channelBudget chId).budgetMsat = 0) ∧
      a.fleetExplorationBudgetMsat = 0 ∧ a.tacticalBudgetMsat = 0) ∧
    (∀ chId, evidence.Excluded chId → (a.channelBudget chId).budgetMsat = 0) ∧
    ∀ chId sats, evidence.spendSats chId ≤ sats →
      let a' := computeAllocations (evidence.withSpend chId sats) cfg
      (a'.channelBudget chId).budgetMsat ≤ (a.channelBudget chId).budgetMsat ∧
        a'.dbDegraded = a.dbDegraded ∧ a'.priorityClass = a.priorityClass ∧
        (a'.channelBudget chId).priorityClass = (a.channelBudget chId).priorityClass := by
  have hnonneg := allocated_nonneg evidence cfg
  have henvelope := envelopeOf_nonneg evidence cfg
  have hexploration : 0 ≤ ((allocated evidence cfg).enforce
      (envelopeOf evidence cfg)).explorationMsat := by
    rw [computeAllocations_budgets]
    exact granted_nonneg _ _ (allocated_explorationMsat_nonneg evidence cfg)
  have htactical : 0 ≤ ((allocated evidence cfg).enforce
      (envelopeOf evidence cfg)).tacticalMsat := by
    rw [computeAllocations_budgets]
    exact granted_nonneg _ _ (allocated_tacticalMsat_nonneg evidence cfg)
  refine ⟨⟨channelBudget_nonneg evidence cfg, hexploration, htactical⟩,
    enforce_total_le henvelope hnonneg, envelopeMsat_configured, envelopeMsat_daily,
    envelopeMsat_weekly, degraded_grants_nothing evidence cfg,
    fun _ => channelBudget_excluded evidence cfg, fun chId sats h => ⟨?_, ?_, ?_, ?_⟩⟩
  · exact channelBudget_withSpend_le h
  · exact dbDegraded_withSpend
  · exact fleetPriority_withSpend evidence cfg chId sats
  · exact channelPriority_withSpend evidence cfg h

def earner : CapexEvidence ℚ where
  channels := Dict.insertAll Table.empty
    [("a", ⟨"profitable", 1000000, 90, 1 / 5, true, none, 400000, 40, 400000, 0, none⟩),
      ("z", ⟨"zombie", 1000000, 90, 0, true, none, 0, 0, 0, 0, none⟩)]
  bleederStatus := Table.empty
  capexByChannelSats := some (Dict.insertAll Table.empty [("a", 50)])
  spendSummary := some .default
  onchainSats := 0
  successRates := Table.empty
  fleetEfficiency := none

def tight : CapexConfig ℚ := { CapexConfig.default with capexGlobalEnvelopeSats := 100 }

theorem allocations_respect_envelope_and_spend_earner :
    let a := computeAllocations earner tight
    let a' := computeAllocations (earner.withSpend "a" 60) tight
    (a.globalEnvelopeMsat ≤ 100 * 1000 ∧ a.globalEnvelopeMsat ≤ 30 * (5000 * 1000) ∧
      (a.globalEnvelopeMsat : ℚ) ≤ 30 / 7 * ((35000 : ℤ) * 1000)) ∧
    (a.channelBudget "z").budgetMsat = 0 ∧
    (a'.channelBudget "a").budgetMsat ≤ (a.channelBudget "a").budgetMsat ∧
    (computeAllocations { earner with spendSummary := none } tight).tacticalBudgetMsat = 0 := by
  obtain ⟨-, -, hconfigured, hdaily, hweekly, -, hexcluded, hspend⟩ :=
    allocations_respect_envelope_and_spend earner tight
  obtain ⟨-, -, -, -, -, hdegraded, -⟩ :=
    allocations_respect_envelope_and_spend { earner with spendSummary := none } tight
  exact ⟨⟨hconfigured (by decide), hdaily (by decide), hweekly (by decide)⟩,
    hexcluded "z" (.inl ⟨_, rfl, rfl⟩), (hspend "a" 60 (by decide)).1, (hdegraded rfl).2.2⟩

end Allocations

end Capex
