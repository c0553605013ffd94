import RevenueOps.RebalancePlanner
import Mathlib.Algebra.Order.Floor.Ring
import Mathlib.Data.List.Dedup
import Mathlib.Data.List.Perm.Lattice
import Mathlib.Data.Rat.Floor
import Mathlib.Tactic.Linarith

/-! What a plan chooses, and that it accounts for every channel. -/
namespace RebalancePlanner

open GreedyMatching RustFloat RustNumber StableSelection

section Candidates

variable {src dest : Classified} {maxChunkSats pairFeeCapPpm : ℤ}

def BudgetFits (src dest : Classified) (maxChunkSats pairFeeCapPpm : ℤ) : Prop :=
  0 < pairFeeCapPpm → InI64 (pairAmount src dest maxChunkSats * pairFeeCapPpm) ∧
    InI64 (pairAmount src dest maxChunkSats * pairFeeCapPpm + 999999)

def Eligible (src dest : Classified) (maxChunkSats : ℤ) : Prop :=
  src.ch.peerId ≠ dest.ch.peerId ∧ 0 < pairAmount src dest maxChunkSats

structure Candidate.Sound (c : Candidate) (maxChunkSats pairFeeCapPpm : ℤ) : Prop where
  eligible : Eligible c.src c.dest maxChunkSats
  amount : c.amountSats = pairAmount c.src c.dest maxChunkSats
  capex : c.dest.ch.capexRemainingSats ≤ c.pairBudgetSats
  feeCap : 0 < pairFeeCapPpm →
    ⌈((c.amountSats * pairFeeCapPpm : ℤ) : ℚ) / 1000000⌉ ≤ c.pairBudgetSats

theorem ceil_million {x : ℤ} (h : 0 ≤ x) : ⌈(x : ℚ) / 1000000⌉ = (x + 999999).tdiv 1000000 := by
  rw [Int.tdiv_eq_ediv_of_nonneg (by omega), Int.ceil_eq_iff, lt_div_iff₀ (by norm_num),
    div_le_iff₀ (by norm_num)]
  constructor
  · have hbelow : ((x + 999999) / 1000000 - 1) * 1000000 < x := by omega
    exact_mod_cast hbelow
  · have habove : x ≤ (x + 999999) / 1000000 * 1000000 := by omega
    exact_mod_cast habove

theorem pairBudget_eq (amountSats : ℤ)
    (hfits : 0 < pairFeeCapPpm → InI64 (amountSats * pairFeeCapPpm) ∧
      InI64 (amountSats * pairFeeCapPpm + 999999)) :
    pairBudget dest pairFeeCapPpm amountSats = some
      (if 0 < pairFeeCapPpm then
        max dest.ch.capexRemainingSats ((amountSats * pairFeeCapPpm + 999999).tdiv 1000000)
      else dest.ch.capexRemainingSats) := by
  unfold pairBudget
  by_cases hcap : 0 < pairFeeCapPpm
  · obtain ⟨hproduct, hsum⟩ := hfits hcap
    have hmul : mulI64 amountSats pairFeeCapPpm = some (amountSats * pairFeeCapPpm) :=
      (computes_i64 _).value hproduct
    have hadd : addI64 (amountSats * pairFeeCapPpm) 999999 =
        some (amountSats * pairFeeCapPpm + 999999) := (computes_i64 _).value hsum
    rw [if_pos hcap, if_pos hcap, hmul]
    change (addI64 (amountSats * pairFeeCapPpm) 999999 >>= _) = _
    rw [hadd]
    rfl
  · rw [if_neg hcap, if_neg hcap]
    rfl

theorem candidate_spec (hfits : Eligible src dest maxChunkSats →
      BudgetFits src dest maxChunkSats pairFeeCapPpm) :
    ∃ found, candidate src dest maxChunkSats pairFeeCapPpm = some found ∧
      (found.isSome ↔ Eligible src dest maxChunkSats) ∧
      ∀ c ∈ found, c.src = src ∧ c.dest = dest ∧ c.Sound maxChunkSats pairFeeCapPpm := by
  unfold candidate
  by_cases hpeer : src.ch.peerId = dest.ch.peerId
  · rw [if_pos hpeer]
    exact ⟨none, rfl, by simp [Eligible, hpeer], by simp⟩
  · rw [if_neg hpeer]
    by_cases hamount : pairAmount src dest maxChunkSats ≤ 0
    · simp only [hamount, if_true]
      exact ⟨none, rfl, by simp [Eligible, not_lt.mpr hamount], by simp⟩
    · have heligible : Eligible src dest maxChunkSats := ⟨hpeer, not_le.mp hamount⟩
      simp only [hamount, if_false]
      rw [pairBudget_eq _ (hfits heligible)]
      refine ⟨_, rfl, by simp [heligible], ?_⟩
      rintro c ⟨⟩
      refine ⟨rfl, rfl, heligible, rfl, ?_, ?_⟩
      · by_cases hcap : 0 < pairFeeCapPpm
        · simp only [hcap, if_true]
          exact le_max_left _ _
        · simp only [hcap, if_false]
          exact le_rfl
      · intro hcap
        simp only [hcap, if_true]
        rw [ceil_million (mul_nonneg heligible.2.le hcap.le)]
        exact le_max_right _ _

end Candidates

section Generation

variable {overLocal overRemote : List Classified} {maxChunkSats pairFeeCapPpm : ℤ}

theorem generate_list {pairs : List (Classified × Classified)}
    (hfits : ∀ p ∈ pairs, Eligible p.1 p.2 maxChunkSats →
      BudgetFits p.1 p.2 maxChunkSats pairFeeCapPpm) :
    ∃ found, (pairs.mapM fun p => candidate p.1 p.2 maxChunkSats pairFeeCapPpm) = some found ∧
      (∀ c ∈ found.filterMap id, (c.src, c.dest) ∈ pairs ∧ c.Sound maxChunkSats pairFeeCapPpm) ∧
      ∀ p ∈ pairs, Eligible p.1 p.2 maxChunkSats →
        ∃ c ∈ found.filterMap id, c.src = p.1 ∧ c.dest = p.2 := by
  induction pairs with
  | nil => exact ⟨[], rfl, by simp, by simp⟩
  | cons p pairs ih =>
    obtain ⟨rest, hrest, hsound, hall⟩ := ih fun q hq => hfits q (List.mem_cons_of_mem _ hq)
    obtain ⟨found, hfound, hsome, hspec⟩ := candidate_spec (hfits p List.mem_cons_self)
    refine ⟨found :: rest, ?_, ?_, ?_⟩
    · rw [List.mapM_cons, hfound, hrest]
      rfl
    · intro c hc
      obtain ⟨o, ho, hoc⟩ := List.mem_filterMap.mp hc
      rcases List.mem_cons.mp ho with rfl | ho
      · obtain ⟨hsrc, hdest, hc⟩ := hspec c hoc
        rw [hsrc, hdest]
        exact ⟨List.mem_cons_self, hc⟩
      · obtain ⟨hin, hc⟩ := hsound c (List.mem_filterMap.mpr ⟨o, ho, hoc⟩)
        exact ⟨List.mem_cons_of_mem _ hin, hc⟩
    · intro q hq heligible
      rcases List.mem_cons.mp hq with rfl | hq
      · obtain ⟨c, hc⟩ := Option.isSome_iff_exists.mp (hsome.mpr heligible)
        obtain ⟨hsrc, hdest, -⟩ := hspec c hc
        exact ⟨c, List.mem_filterMap.mpr ⟨found, List.mem_cons_self, hc⟩, hsrc, hdest⟩
      · obtain ⟨c, hc, hends⟩ := hall q hq heligible
        obtain ⟨o, ho, hoc⟩ := List.mem_filterMap.mp hc
        exact ⟨c, List.mem_filterMap.mpr ⟨o, List.mem_cons_of_mem _ ho, hoc⟩, hends⟩

theorem generatePairs_spec
    (hfits : ∀ src ∈ overLocal, ∀ dest ∈ overRemote, Eligible src dest maxChunkSats →
      BudgetFits src dest maxChunkSats pairFeeCapPpm) :
    ∃ candidates, generatePairs overLocal overRemote maxChunkSats pairFeeCapPpm = some candidates ∧
      (∀ c ∈ candidates, c.src ∈ overLocal ∧ c.dest ∈ overRemote ∧
        c.Sound maxChunkSats pairFeeCapPpm) ∧
      ∀ src ∈ overLocal, ∀ dest ∈ overRemote, Eligible src dest maxChunkSats →
        ∃ c ∈ candidates, c.src = src ∧ c.dest = dest := by
  have hmem : ∀ p : Classified × Classified,
      p ∈ overLocal.flatMap (fun src => overRemote.map fun dest => (src, dest)) ↔
        p.1 ∈ overLocal ∧ p.2 ∈ overRemote := by
    intro p
    simp only [List.mem_flatMap, List.mem_map]
    constructor
    · rintro ⟨src, hsrc, dest, hdest, rfl⟩
      exact ⟨hsrc, hdest⟩
    · intro h
      exact ⟨p.1, h.1, p.2, h.2, rfl⟩
  have hpairs : ∀ p ∈ overLocal.flatMap (fun src => overRemote.map fun dest => (src, dest)),
      Eligible p.1 p.2 maxChunkSats → BudgetFits p.1 p.2 maxChunkSats pairFeeCapPpm :=
    fun p hp => hfits p.1 ((hmem p).mp hp).1 p.2 ((hmem p).mp hp).2
  obtain ⟨found, hfound, hsound, hall⟩ := generate_list hpairs
  refine ⟨found.filterMap id, ?_, ?_, ?_⟩
  · simp only [generatePairs, hfound]
    rfl
  · intro c hc
    obtain ⟨hin, hc⟩ := hsound c hc
    exact ⟨((hmem _).mp hin).1, ((hmem _).mp hin).2, hc⟩
  · intro src hsrc dest hdest heligible
    exact hall (src, dest) ((hmem _).mpr ⟨hsrc, hdest⟩) heligible

end Generation

section Choice

variable {maxPairs : ℕ} {pairFeeCapPpm : ℤ}

abbrev chosen (maxPairs : ℕ) (taken candidates : List Candidate) : List Candidate :=
  greedy Candidate.sourceId Candidate.destId maxPairs taken candidates

def selectionOf (pairFeeCapPpm : ℤ) (taken : List Candidate) : Selection where
  pairedSources := (taken.map Candidate.sourceId).toFinset
  pairedDests := (taken.map Candidate.destId).toFinset
  selected := taken.map (Candidate.planned pairFeeCapPpm)

theorem selectionOf_snoc (taken : List Candidate) (c : Candidate) :
    selectionOf pairFeeCapPpm (taken ++ [c]) =
      { pairedSources := insert c.sourceId (selectionOf pairFeeCapPpm taken).pairedSources
        pairedDests := insert c.destId (selectionOf pairFeeCapPpm taken).pairedDests
        selected := (selectionOf pairFeeCapPpm taken).selected ++ [c.planned pairFeeCapPpm] } := by
  have hinsert : ∀ (l : List String) (a : String), (l ++ [a]).toFinset = insert a l.toFinset := by
    intro l a
    ext x
    simp [or_comm]
  simp only [selectionOf, List.map_append, List.map_cons, List.map_nil, hinsert]

theorem select_eq (taken candidates : List Candidate) :
    select maxPairs pairFeeCapPpm (selectionOf pairFeeCapPpm taken) candidates =
      selectionOf pairFeeCapPpm (chosen maxPairs taken candidates) := by
  induction candidates generalizing taken with
  | nil => rfl
  | cons c candidates ih =>
    have hlength : (selectionOf pairFeeCapPpm taken).selected.length = taken.length := by
      simp [selectionOf]
    have hblocked : (c.sourceId ∈ (selectionOf pairFeeCapPpm taken).pairedSources ∨
        c.destId ∈ (selectionOf pairFeeCapPpm taken).pairedDests) ↔
        Blocked Candidate.sourceId Candidate.destId taken c := by
      simp only [selectionOf, List.mem_toFinset, List.mem_map, Blocked]
      constructor
      · rintro (⟨t, ht, h⟩ | ⟨t, ht, h⟩)
        · exact ⟨t, ht, .inl h⟩
        · exact ⟨t, ht, .inr h⟩
      · rintro ⟨t, ht, h | h⟩
        · exact .inl ⟨t, ht, h⟩
        · exact .inr ⟨t, ht, h⟩
    unfold select chosen greedy
    rw [hlength]
    by_cases hfull : maxPairs ≤ taken.length
    · rw [if_pos hfull, if_pos hfull]
    · rw [if_neg hfull, if_neg hfull]
      by_cases hb : Blocked Candidate.sourceId Candidate.destId taken c
      · rw [if_pos (hblocked.mpr hb), if_pos hb]
        exact ih taken
      · rw [if_neg (fun h => hb (hblocked.mp h)), if_neg hb, ← selectionOf_snoc]
        exact ih (taken ++ [c])

end Choice

section Accounts

def idsOf (side : List Classified) : List String := side.map fun c => c.ch.channelId

variable {channels : List PlannerChannel} {side : List Classified} {band : Band}

@[simp] theorem classified_ch (ch : PlannerChannel) : (classified ch).ch = ch := rfl

theorem inBand_cons (ch : PlannerChannel) :
    inBand band (ch :: channels) =
      if (classified ch).band = band then classified ch :: inBand band channels
      else inBand band channels := by
  simp [inBand, List.filter_cons]

theorem mem_inBand {c : Classified} :
    c ∈ inBand band channels ↔ (∃ ch ∈ channels, classified ch = c) ∧ c.band = band := by
  simp [inBand, List.mem_filter]

theorem bands_perm (channels : List PlannerChannel) :
    (idsOf (inBand .overLocal channels) ++ idsOf (inBand .overRemote channels) ++
      idsOf (inBand .inside channels)).Perm (channels.map PlannerChannel.channelId) := by
  rw [List.perm_iff_count]
  intro id
  simp only [List.count_append]
  induction channels with
  | nil => rfl
  | cons ch channels ih =>
    have hcons : ∀ b, (idsOf (inBand b (ch :: channels))).count id =
        (if (classified ch).band = b ∧ ch.channelId = id then 1 else 0) +
          (idsOf (inBand b channels)).count id := by
      intro b
      rw [inBand_cons]
      by_cases hb : (classified ch).band = b
      · by_cases hid : ch.channelId = id
        · simp [idsOf, hb, hid, Nat.add_comm]
        · simp [idsOf, hb, hid]
      · simp [hb]
    rw [hcons, hcons, hcons, List.map_cons, List.count_cons, ← ih]
    by_cases hid : ch.channelId = id
    · cases hband : (classified ch).band <;> simp [hid] <;> omega
    · simp [hid]

theorem nodup_idsOf (hids : (channels.map PlannerChannel.channelId).Nodup) (band : Band) :
    (idsOf (inBand band channels)).Nodup := by
  have hsub : (idsOf (inBand band channels)).Sublist
      (idsOf (channels.map classified)) := List.filter_sublist.map _
  have hall : idsOf (channels.map classified) = channels.map PlannerChannel.channelId := by
    simp [idsOf, classified, Function.comp_def]
  rw [hall] at hsub
  exact hids.sublist hsub

theorem side_perm {used : List String} (hside : (idsOf side).Nodup) (hused : used.Nodup)
    (hin : ∀ id ∈ used, id ∈ idsOf side) :
    (used ++ idsOf (unpaired used.toFinset side)).Perm (idsOf side) := by
  have hunpaired : (idsOf (unpaired used.toFinset side)).Sublist (idsOf side) :=
    List.filter_sublist.map _
  have hmem : ∀ id, id ∈ idsOf (unpaired used.toFinset side) ↔ id ∈ idsOf side ∧ id ∉ used := by
    intro id
    simp only [idsOf, unpaired, List.mem_map, List.mem_filter, List.mem_toFinset,
      decide_eq_true_eq]
    constructor
    · rintro ⟨c, ⟨hc, hnot⟩, rfl⟩
      exact ⟨⟨c, hc, rfl⟩, hnot⟩
    · rintro ⟨⟨c, hc, rfl⟩, hnot⟩
      exact ⟨c, ⟨hc, hnot⟩, rfl⟩
  rw [List.perm_ext_iff_of_nodup _ hside]
  · intro id
    rw [List.mem_append, hmem]
    constructor
    · rintro (h | h)
      · exact hin id h
      · exact h.1
    · intro h
      by_cases hu : id ∈ used
      · exact .inl hu
      · exact .inr ⟨h, hu⟩
  · apply List.Nodup.append hused (hside.sublist hunpaired)
    intro id hu hid
    exact ((hmem id).mp hid).2 hu

end Accounts

/-- The plan is a matching of over-local with over-remote channels within its limits, no further
pair fits it unless the limit is reached, and every channel is accounted for once. The fee cap
raises a budget only where it is positive. -/
structure SoundPlan (channels : List PlannerChannel) (maxChunkSats : ℤ) (maxPairs : ℕ)
    (pairFeeCapPpm : ℤ) (out : PlanOutput) : Prop where
  matching : (out.pairs.map PlannedPair.source ++ out.pairs.map PlannedPair.dest).Nodup
  joins : ∀ p ∈ out.pairs, ∃ src ∈ channels, ∃ dest ∈ channels,
    p.source = src.channelId ∧ p.dest = dest.channelId ∧ src.peerId ≠ dest.peerId ∧
    0 < p.amountSats ∧ p.amountSats ≤ maxChunkSats ∧
    dest.capexRemainingSats ≤ p.pairBudgetSats ∧
    (0 < pairFeeCapPpm →
      ⌈((p.amountSats * pairFeeCapPpm : ℤ) : ℚ) / 1000000⌉ ≤ p.pairBudgetSats)
  bounded : out.pairs.length ≤ maxPairs
  ordered : out.pairs.Pairwise fun p q => totalKey q.score ≤ totalKey p.score
  maximal : out.pairs.length < maxPairs → ∀ src ∈ channels, ∀ dest ∈ channels,
    (classified src).band = .overLocal → (classified dest).band = .overRemote →
    Eligible (classified src) (classified dest) maxChunkSats →
    ∃ p ∈ out.pairs, p.source = src.channelId ∨ p.dest = dest.channelId
  explained : (out.pairs.map PlannedPair.source ++ out.pairs.map PlannedPair.dest ++
    out.skips.map SkipRecord.channelId).Perm (channels.map PlannerChannel.channelId)
  drains : (out.drainDemand.map DrainDemand.channelId).Perm
    ((channels.filter fun ch => (classified ch).band = .overLocal ∧
      ch.channelId ∉ out.pairs.map PlannedPair.source).map PlannerChannel.channelId)

section Plan

variable {channels : List PlannerChannel} {maxChunkSats : ℤ} {maxPairs : ℕ} {pairFeeCapPpm : ℤ}

theorem publish_skips (overLocal overRemote inside : List Classified) (s : Selection) :
    (publish overLocal overRemote inside maxPairs s).skips.map SkipRecord.channelId =
      idsOf inside ++ idsOf (unpaired s.pairedSources overLocal) ++
        idsOf (unpaired s.pairedDests overRemote) := by
  simp only [publish, List.map_append, List.map_map]
  rfl

theorem publish_drains (overLocal overRemote inside : List Classified) (s : Selection) :
    ((publish overLocal overRemote inside maxPairs s).drainDemand.map DrainDemand.channelId).Perm
      (idsOf (unpaired s.pairedSources overLocal)) := by
  have hsort : (sortByKey (fun d : DrainDemand => -totalKey d.drainScore)
      ((unpaired s.pairedSources overLocal).map drainOf)).Perm
      ((unpaired s.pairedSources overLocal).map drainOf) := perm_sortByKey _
  have hsorted := hsort.map DrainDemand.channelId
  rw [List.map_map] at hsorted
  exact hsorted

theorem publish_sound (hids : (channels.map PlannerChannel.channelId).Nodup)
    {candidates : List Candidate}
    (hsorted : candidates.Pairwise fun a b => -totalKey a.score ≤ -totalKey b.score)
    (hsound : ∀ c ∈ candidates, c.src ∈ inBand .overLocal channels ∧
      c.dest ∈ inBand .overRemote channels ∧ c.Sound maxChunkSats pairFeeCapPpm)
    (hall : ∀ src ∈ inBand .overLocal channels, ∀ dest ∈ inBand .overRemote channels,
      Eligible src dest maxChunkSats → ∃ c ∈ candidates, c.src = src ∧ c.dest = dest) :
    SoundPlan channels maxChunkSats maxPairs pairFeeCapPpm
      (publish (inBand .overLocal channels) (inBand .overRemote channels)
        (inBand .inside channels) maxPairs
        (selectionOf pairFeeCapPpm (chosen maxPairs [] candidates))) := by
  have hchosen : (chosen maxPairs [] candidates).Sublist candidates := greedy_sublist
  have hmatching : Matching Candidate.sourceId Candidate.destId (chosen maxPairs [] candidates) :=
    greedy_matching List.Pairwise.nil
  have hlength : (chosen maxPairs [] candidates).length ≤ maxPairs := length_greedy (by simp)
  have hmaximal : (chosen maxPairs [] candidates).length < maxPairs →
      ∀ c ∈ candidates, Blocked Candidate.sourceId Candidate.destId
        (chosen maxPairs [] candidates) c := greedy_maximal
  generalize chosen maxPairs [] candidates = taken at *
  have htaken : ∀ c ∈ taken, c.src ∈ inBand .overLocal channels ∧
      c.dest ∈ inBand .overRemote channels ∧ c.Sound maxChunkSats pairFeeCapPpm :=
    fun c hc => hsound c (hchosen.subset hc)
  have hsources : ((selectionOf pairFeeCapPpm taken).selected.map PlannedPair.source) =
      taken.map Candidate.sourceId := by simp [selectionOf, Candidate.planned, Function.comp_def]
  have hdests : ((selectionOf pairFeeCapPpm taken).selected.map PlannedPair.dest) =
      taken.map Candidate.destId := by simp [selectionOf, Candidate.planned, Function.comp_def]
  have hlocal : (taken.map Candidate.sourceId ++
      idsOf (unpaired (selectionOf pairFeeCapPpm taken).pairedSources
        (inBand .overLocal channels))).Perm (idsOf (inBand .overLocal channels)) := by
    apply side_perm (nodup_idsOf hids _)
    · exact List.pairwise_map.mpr (hmatching.imp fun h => h.1)
    · intro id hid
      obtain ⟨c, hc, rfl⟩ := List.mem_map.mp hid
      exact List.mem_map.mpr ⟨c.src, (htaken c hc).1, rfl⟩
  have hremote : (taken.map Candidate.destId ++
      idsOf (unpaired (selectionOf pairFeeCapPpm taken).pairedDests
        (inBand .overRemote channels))).Perm (idsOf (inBand .overRemote channels)) := by
    apply side_perm (nodup_idsOf hids _)
    · exact List.pairwise_map.mpr (hmatching.imp fun h => h.2)
    · intro id hid
      obtain ⟨c, hc, rfl⟩ := List.mem_map.mp hid
      exact List.mem_map.mpr ⟨c.dest, (htaken c hc).2.1, rfl⟩
  have hexplained : (taken.map Candidate.sourceId ++ taken.map Candidate.destId ++
      (idsOf (inBand .inside channels) ++
        idsOf (unpaired (selectionOf pairFeeCapPpm taken).pairedSources
          (inBand .overLocal channels)) ++
        idsOf (unpaired (selectionOf pairFeeCapPpm taken).pairedDests
          (inBand .overRemote channels)))).Perm (channels.map PlannerChannel.channelId) := by
    rw [List.perm_iff_count]
    intro id
    have hbands := (bands_perm channels).count_eq id
    have hl := hlocal.count_eq id
    have hr := hremote.count_eq id
    simp only [List.count_append] at hbands hl hr ⊢
    omega
  constructor
  · change ((selectionOf pairFeeCapPpm taken).selected.map PlannedPair.source ++
      (selectionOf pairFeeCapPpm taken).selected.map PlannedPair.dest).Nodup
    rw [hsources, hdests]
    exact (hexplained.nodup_iff.mpr hids).sublist (List.sublist_append_left _ _)
  · intro p hp
    obtain ⟨c, hc, rfl⟩ := List.mem_map.mp hp
    obtain ⟨hsrc, hdest, hc⟩ := htaken c hc
    obtain ⟨⟨src, hsrcIn, hsrcEq⟩, -⟩ := mem_inBand.mp hsrc
    obtain ⟨⟨dest, hdestIn, hdestEq⟩, -⟩ := mem_inBand.mp hdest
    have hsrcCh : c.src.ch = src := by rw [← hsrcEq]; rfl
    have hdestCh : c.dest.ch = dest := by rw [← hdestEq]; rfl
    refine ⟨src, hsrcIn, dest, hdestIn, congrArg PlannerChannel.channelId hsrcCh,
      congrArg PlannerChannel.channelId hdestCh, ?_, ?_, ?_, ?_, hc.feeCap⟩
    · rw [← hsrcCh, ← hdestCh]
      exact hc.eligible.1
    · exact hc.eligible.2.trans_eq hc.amount.symm
    · exact hc.amount.trans_le (min_le_right _ _)
    · rw [← hdestCh]
      exact hc.capex
  · exact (List.length_map _).trans_le hlength
  · have hpairs := hsorted.sublist hchosen
    exact List.pairwise_map.mpr (hpairs.imp fun h => neg_le_neg_iff.mp h)
  · intro hfree src hsrc dest hdest hover hunder heligible
    have hfree' : taken.length < maxPairs := (List.length_map _).symm.trans_lt hfree
    obtain ⟨c, hc, hcsrc, hcdest⟩ := hall (classified src)
      (mem_inBand.mpr ⟨⟨src, hsrc, rfl⟩, hover⟩) (classified dest)
      (mem_inBand.mpr ⟨⟨dest, hdest, rfl⟩, hunder⟩) heligible
    obtain ⟨t, ht, hshare⟩ := hmaximal hfree' c hc
    refine ⟨t.planned pairFeeCapPpm, List.mem_map_of_mem ht, ?_⟩
    rw [show c.sourceId = src.channelId from congrArg (fun x => x.ch.channelId) hcsrc,
      show c.destId = dest.channelId from congrArg (fun x => x.ch.channelId) hcdest] at hshare
    exact hshare
  · rw [publish_skips]
    change ((selectionOf pairFeeCapPpm taken).selected.map PlannedPair.source ++
      (selectionOf pairFeeCapPpm taken).selected.map PlannedPair.dest ++ _).Perm _
    rw [hsources, hdests]
    exact hexplained
  · apply (publish_drains _ _ _ _).trans
    have hunpaired : idsOf (unpaired (selectionOf pairFeeCapPpm taken).pairedSources
        (inBand .overLocal channels)) =
        (channels.filter fun ch => (classified ch).band = .overLocal ∧
          ch.channelId ∉ taken.map Candidate.sourceId).map PlannerChannel.channelId := by
      simp only [idsOf, unpaired, inBand, List.filter_map, List.map_map, List.filter_filter]
      congr 1
      apply List.filter_congr
      intro ch _
      have hfree : ch.channelId ∉ (selectionOf pairFeeCapPpm taken).pairedSources ↔
          ch.channelId ∉ taken.map Candidate.sourceId := not_congr List.mem_toFinset
      rw [Bool.eq_iff_iff, Bool.and_eq_true, decide_eq_true_iff]
      exact (and_congr (decide_eq_true_iff.trans hfree) decide_eq_true_iff).trans and_comm
    change (idsOf _).Perm ((channels.filter fun ch => (classified ch).band = .overLocal ∧
      ch.channelId ∉ (selectionOf pairFeeCapPpm taken).selected.map PlannedPair.source).map _)
    rw [hunpaired, hsources]

/-- The planner's selection, for every list of channels with distinct ids whose fee-cap products
fit. -/
theorem plan_sound (hids : (channels.map PlannerChannel.channelId).Nodup)
    (hfits : ∀ src ∈ channels, ∀ dest ∈ channels,
      (classified src).band = .overLocal → (classified dest).band = .overRemote →
      Eligible (classified src) (classified dest) maxChunkSats →
      BudgetFits (classified src) (classified dest) maxChunkSats pairFeeCapPpm) :
    ∃ out, plan channels maxChunkSats maxPairs pairFeeCapPpm = some out ∧
      SoundPlan channels maxChunkSats maxPairs pairFeeCapPpm out := by
  have hsides : ∀ src ∈ inBand .overLocal channels, ∀ dest ∈ inBand .overRemote channels,
      Eligible src dest maxChunkSats → BudgetFits src dest maxChunkSats pairFeeCapPpm := by
    intro src hsrc dest hdest
    obtain ⟨⟨s, hs, rfl⟩, hover⟩ := mem_inBand.mp hsrc
    obtain ⟨⟨d, hd, rfl⟩, hunder⟩ := mem_inBand.mp hdest
    exact hfits s hs d hd hover hunder
  obtain ⟨candidates, hgenerate, hsound, hall⟩ := generatePairs_spec hsides
  have hperm : (sortByKey (fun c : Candidate => -totalKey c.score) candidates).Perm candidates :=
    perm_sortByKey candidates
  have hselect := @select_eq maxPairs pairFeeCapPpm []
    (sortByKey (fun c : Candidate => -totalKey c.score) candidates)
  refine ⟨_, ?_, publish_sound hids (pairwise_sortByKey candidates)
    (fun c hc => hsound c (hperm.mem_iff.mp hc)) ?_⟩
  · simp only [plan, hgenerate]
    exact congrArg (fun s => some (publish _ _ _ maxPairs s)) hselect
  · intro src hsrc dest hdest heligible
    obtain ⟨c, hc, hends⟩ := hall src hsrc dest hdest heligible
    exact ⟨c, hperm.mem_iff.mpr hc, hends⟩

end Plan

section Samples

def bandedChannel (channelId peerId : String) (spendableSats capexRemainingSats : ℤ) :
    PlannerChannel :=
  ⟨channelId, peerId, 1000000, spendableSats, 0.4, 0.6, 100, "active", 0.5, 0.5,
    capexRemainingSats⟩

def fullAndEmpty (capexRemainingSats : ℤ) : List PlannerChannel :=
  [bandedChannel "10x1x0" "02aa" 900000 0, bandedChannel "20x1x0" "02bb" 100000 capexRemainingSats]

/-- The plan of the two channels. -/
theorem fullAndEmpty_sound : ∃ out, plan (fullAndEmpty 50) 200000 5 1000 = some out ∧
    SoundPlan (fullAndEmpty 50) 200000 5 1000 out := by
  apply plan_sound (by decide)
  intro src hsrc dest hdest _ _ _ _
  have hmax : pairAmount (classified src) (classified dest) 200000 ≤ 200000 := min_le_right _ _
  have hnonneg : 0 ≤ pairAmount (classified src) (classified dest) 200000 :=
    le_min (le_min (le_max_right _ _) (le_max_right _ _)) (by norm_num)
  unfold InI64
  omega

/-- Without a positive fee cap the budget is the remaining capex, which may be below the rounded-up
fee of zero. -/
theorem uncapped_budget_below_fee :
    ∃ out, plan (fullAndEmpty (-10)) 200000 5 0 = some out ∧
      ∃ p ∈ out.pairs, p.pairBudgetSats < ⌈((p.amountSats * 0 : ℤ) : ℚ) / 1000000⌉ := by
  have hplan : (plan (fullAndEmpty (-10)) 200000 5 0).any (fun out =>
      out.pairs.any fun p => p.pairBudgetSats < 0) = true := by decide +kernel
  obtain ⟨out, hout, hpairs⟩ := (Option.any_eq_true _ _).mp hplan
  obtain ⟨p, hp, hbudget⟩ := List.any_eq_true.mp hpairs
  refine ⟨out, hout, p, hp, ?_⟩
  have hnegative : p.pairBudgetSats < 0 := of_decide_eq_true hbudget
  norm_num
  exact hnegative

end Samples

end RebalancePlanner
