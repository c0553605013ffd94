import RevenueOps.ContextualMemory
import RevenueOps.ThompsonExact

/-! Runs of the contextual memory over exact numbers. A context stays between what it was created
from and what was recorded into it; its own updates keep its precision down, and the pollination of
an adjacent bucket does not. -/
namespace ContextualRuns

open Arithmetic WeightedMean Thompson

noncomputable section

section Hull

structure Hull (xs : List ℝ) (x : ℝ) : Prop where
  low : ∃ a ∈ xs, a ≤ x
  high : ∃ b ∈ xs, x ≤ b

variable {xs : List ℝ} {x : ℝ}

theorem hull_of_mem (h : x ∈ xs) : Hull xs x := ⟨⟨x, h, le_rfl⟩, ⟨x, h, le_rfl⟩⟩

theorem Hull.append (h : Hull xs x) (fee : ℝ) : Hull (xs ++ [fee]) x := by
  obtain ⟨⟨a, ha, hax⟩, ⟨b, hb, hxb⟩⟩ := h
  exact ⟨⟨a, List.mem_append_left _ ha, hax⟩, ⟨b, List.mem_append_left _ hb, hxb⟩⟩

theorem blendMean_eq {p q : ℝ} (hp : 0 < p) (hq : 0 < q) (mean fee : ℝ) :
    blendMean p mean q fee = mean + (fee - mean) * (q / (p + q)) := by
  have hpq : p + q ≠ 0 := (add_pos hp hq).ne'
  rw [blendMean]
  field_simp
  ring

theorem Hull.blend {p q fee : ℝ} (h : Hull xs x) (hp : 0 < p) (hq : 0 < q) :
    Hull (xs ++ [fee]) (blendMean p x q fee) := by
  obtain ⟨⟨a, ha, hax⟩, ⟨b, hb, hxb⟩⟩ := h
  have hfee : fee ∈ xs ++ [fee] := by simp
  have hshare : 0 ≤ q / (p + q) := by positivity
  have hpart : q / (p + q) ≤ 1 := by
    rw [div_le_one (add_pos hp hq)]
    linarith
  rw [blendMean_eq hp hq]
  rcases le_total x fee with hle | hle
  · have hup : 0 ≤ (fee - x) * (q / (p + q)) := mul_nonneg (by linarith) hshare
    have hmost : (fee - x) * (q / (p + q)) ≤ fee - x :=
      mul_le_of_le_one_right (by linarith) hpart
    exact ⟨⟨a, List.mem_append_left _ ha, by linarith⟩, ⟨fee, hfee, by linarith⟩⟩
  · have hdown : (fee - x) * (q / (p + q)) ≤ 0 :=
      mul_nonpos_of_nonpos_of_nonneg (by linarith) hshare
    have hmost : fee - x ≤ (fee - x) * (q / (p + q)) := by
      have := mul_le_of_le_one_right (by linarith : 0 ≤ x - fee) hpart
      linarith
    exact ⟨⟨fee, hfee, by linarith⟩, ⟨b, List.mem_append_left _ hb, by linarith⟩⟩

end Hull

section Stores

variable {contexts : Contexts ℝ} {key : String} {ctx : CtxPosterior ℝ}
  {e : String × CtxPosterior ℝ}

theorem context?_mem (h : context? contexts key = some ctx) : (key, ctx) ∈ contexts := by
  obtain ⟨e, he, rfl⟩ := Option.map_eq_some_iff.mp h
  have hkey : e.1 = key := by simpa using List.find?_some he
  rw [← hkey]
  exact List.mem_of_find?_eq_some he

theorem notMem_of_context?_none (h : context? contexts key = none) :
    key ∉ contexts.map Prod.fst := by
  intro hmem
  obtain ⟨e, he, rfl⟩ := List.mem_map.mp hmem
  have hfind := List.find?_eq_none.mp (Option.map_eq_none_iff.mp h) e he
  simp at hfind

theorem setContext_keys (key : String) (ctx : CtxPosterior ℝ) (contexts : Contexts ℝ) :
    (setContext key ctx contexts).map Prod.fst = contexts.map Prod.fst := by
  induction contexts with
  | nil => rfl
  | cons e rest ih =>
    rw [setContext]
    split
    · rfl
    · rw [List.map_cons, List.map_cons, ih]

theorem mem_setContext (hnodup : (contexts.map Prod.fst).Nodup)
    (h : e ∈ setContext key ctx contexts) : e = (key, ctx) ∨ (e ∈ contexts ∧ e.1 ≠ key) := by
  induction contexts with
  | nil => exact absurd h List.not_mem_nil
  | cons first rest ih =>
    obtain ⟨hfirst, hrest⟩ := List.nodup_cons.mp hnodup
    rw [setContext] at h
    split at h
    · rename_i hkey
      rcases List.mem_cons.mp h with rfl | h
      · exact .inl (Prod.ext hkey rfl)
      · refine .inr ⟨List.mem_cons_of_mem _ h, ?_⟩
        rintro rfl
        apply hfirst
        rw [hkey]
        exact List.mem_map_of_mem h
    · rename_i hkey
      rcases List.mem_cons.mp h with rfl | h
      · exact .inr ⟨List.mem_cons_self, hkey⟩
      · rcases ih hrest h with h | ⟨h, hne⟩
        · exact .inl h
        · exact .inr ⟨List.mem_cons_of_mem _ h, hne⟩

theorem setContext_length (key : String) (ctx : CtxPosterior ℝ) (contexts : Contexts ℝ) :
    (setContext key ctx contexts).length = contexts.length := by
  have hkeys := congrArg List.length (setContext_keys key ctx contexts)
  rwa [List.length_map, List.length_map] at hkeys

theorem mem_setContext_of_ne (h : e ∈ contexts) (hne : e.1 ≠ key) :
    e ∈ setContext key ctx contexts := by
  induction contexts with
  | nil => exact absurd h List.not_mem_nil
  | cons first rest ih =>
    rw [setContext]
    split
    · rename_i hkey
      rcases List.mem_cons.mp h with rfl | h
      · exact absurd hkey hne
      · exact List.mem_cons_of_mem _ h
    · rcases List.mem_cons.mp h with rfl | h
      · exact List.mem_cons_self
      · exact List.mem_cons_of_mem _ (ih h)

theorem mem_setContext_self (h : key ∈ contexts.map Prod.fst) :
    (key, ctx) ∈ setContext key ctx contexts := by
  induction contexts with
  | nil => exact absurd h List.not_mem_nil
  | cons first rest ih =>
    rw [setContext]
    split
    · rename_i hkey
      rw [← hkey]
      exact List.mem_cons_self
    · rename_i hkey
      rcases List.mem_cons.mp h with h | h
      · exact absurd h.symm hkey
      · exact List.mem_cons_of_mem _ (ih h)

theorem context?_of_mem (hnodup : (contexts.map Prod.fst).Nodup) (h : e ∈ contexts) :
    context? contexts e.1 = some e.2 := by
  cases hctx : context? contexts e.1 with
  | none => exact absurd (List.mem_map_of_mem h) (notMem_of_context?_none hctx)
  | some ctx =>
    have hsame := List.inj_on_of_nodup_map hnodup h (context?_mem hctx) rfl
    exact congrArg some (congrArg Prod.snd hsame).symm

theorem pruneContexts_sublist (contexts : Contexts ℝ) :
    ∃ sorted, sorted.Perm contexts ∧ (pruneContexts contexts).Sublist sorted := by
  rw [pruneContexts]
  split
  · exact ⟨_, List.mergeSort_perm _ _, List.take_sublist _ _⟩
  · exact ⟨_, List.Perm.refl _, List.Sublist.refl _⟩

theorem pruneContexts_length (contexts : Contexts ℝ) : (pruneContexts contexts).length ≤ 130 := by
  rw [pruneContexts]
  split
  · apply (List.length_take_le _ _).trans
    norm_num
  · omega

theorem mem_of_mem_prune (h : e ∈ pruneContexts contexts) : e ∈ contexts := by
  obtain ⟨sorted, hperm, hsub⟩ := pruneContexts_sublist contexts
  exact hperm.mem_iff.mp (hsub.subset h)

theorem pruneContexts_nodup (h : (contexts.map Prod.fst).Nodup) :
    ((pruneContexts contexts).map Prod.fst).Nodup := by
  obtain ⟨sorted, hperm, hsub⟩ := pruneContexts_sublist contexts
  exact ((hperm.map Prod.fst).nodup_iff.mpr h).sublist (hsub.map Prod.fst)

end Stores

section Pollination

variable {s : GaussianThompsonState ℝ} {fee rate : ℝ} {contexts : Contexts ℝ}
  {e : String × CtxPosterior ℝ}

def pollinate (s : GaussianThompsonState ℝ) (fee rate : ℝ) (contexts : Contexts ℝ)
    (adjKey : String) : Contexts ℝ :=
  match context? contexts adjKey with
  | some adj => setContext adjKey (crossUpdate s fee rate adj) contexts
  | none => contexts

theorem updateRelatedTimeContexts_eq (contextKey observedTime : String) (contexts : Contexts ℝ) :
    updateRelatedTimeContexts s contextKey fee rate observedTime contexts =
      (adjacentKeys contextKey observedTime).foldl (pollinate s fee rate) contexts := by
  rw [updateRelatedTimeContexts]
  congr 1
  funext contexts adjKey
  rw [pollinate]
  cases context? contexts adjKey <;> rfl

theorem pollinate_keys (contexts : Contexts ℝ) (adjKey : String) :
    (pollinate s fee rate contexts adjKey).map Prod.fst = contexts.map Prod.fst := by
  rw [pollinate]
  split
  · exact setContext_keys _ _ _
  · rfl

theorem foldl_pollinate_keys (keys : List String) (contexts : Contexts ℝ) :
    (keys.foldl (pollinate s fee rate) contexts).map Prod.fst = contexts.map Prod.fst := by
  induction keys generalizing contexts with
  | nil => rfl
  | cons key keys ih => rw [List.foldl_cons, ih, pollinate_keys]

theorem mem_pollinate {adjKey : String} (hnodup : (contexts.map Prod.fst).Nodup)
    (h : e ∈ pollinate s fee rate contexts adjKey) :
    e ∈ contexts ∨
      ∃ old, (adjKey, old) ∈ contexts ∧ e = (adjKey, crossUpdate s fee rate old) := by
  rw [pollinate] at h
  split at h
  · rename_i adj hadj
    rcases mem_setContext hnodup h with rfl | ⟨h, -⟩
    · exact .inr ⟨adj, context?_mem hadj, rfl⟩
    · exact .inl h
  · exact .inl h

theorem mem_foldl_pollinate {keys : List String} (hkeys : keys.Nodup)
    (hnodup : (contexts.map Prod.fst).Nodup)
    (h : e ∈ keys.foldl (pollinate s fee rate) contexts) :
    e ∈ contexts ∨ e.1 ∈ keys ∧
      ∃ old, (e.1, old) ∈ contexts ∧ e.2 = crossUpdate s fee rate old := by
  induction keys generalizing contexts with
  | nil => exact .inl h
  | cons key keys ih =>
    obtain ⟨hkey, hrest⟩ := List.nodup_cons.mp hkeys
    rw [← pollinate_keys contexts key] at hnodup
    rcases ih hrest hnodup h with h | ⟨hmem, old, hold, he⟩
    · rw [pollinate_keys] at hnodup
      rcases mem_pollinate hnodup h with h | ⟨old, hold, rfl⟩
      · exact .inl h
      · exact .inr ⟨List.mem_cons_self, old, hold, rfl⟩
    · rw [pollinate_keys] at hnodup
      rcases mem_pollinate hnodup hold with hold | ⟨_, _, heq⟩
      · exact .inr ⟨List.mem_cons_of_mem _ hmem, old, hold, he⟩
      · obtain ⟨rfl, -⟩ := Prod.mk.inj heq
        exact absurd hmem hkey

theorem mem_pollinate_of_mem {adjKey : String} (hnodup : (contexts.map Prod.fst).Nodup)
    (h : e ∈ contexts) : (if e.1 = adjKey then (e.1, crossUpdate s fee rate e.2) else e) ∈
      pollinate s fee rate contexts adjKey := by
  rw [pollinate]
  by_cases hkey : e.1 = adjKey
  · subst hkey
    simp only [context?_of_mem hnodup h, if_true]
    exact mem_setContext_self (List.mem_map_of_mem h)
  · rw [if_neg hkey]
    split
    · exact mem_setContext_of_ne h hkey
    · exact h

theorem mem_foldl_pollinate_of_mem {keys : List String} (hkeys : keys.Nodup)
    (hnodup : (contexts.map Prod.fst).Nodup) (h : e ∈ contexts) :
    (if e.1 ∈ keys then (e.1, crossUpdate s fee rate e.2) else e) ∈
      keys.foldl (pollinate s fee rate) contexts := by
  induction keys generalizing contexts e with
  | nil => exact h
  | cons key keys ih =>
    obtain ⟨hkey, hrest⟩ := List.nodup_cons.mp hkeys
    have hfirst := @mem_pollinate_of_mem s fee rate contexts e key hnodup h
    rw [← pollinate_keys contexts key] at hnodup
    have hlater := ih hrest hnodup hfirst
    by_cases he : e.1 = key
    · have hdone : e.1 ∉ keys := he ▸ hkey
      rw [if_pos he, if_neg hdone] at hlater
      rw [if_pos (he ▸ List.mem_cons_self)]
      exact hlater
    · rw [if_neg he] at hlater
      simp only [List.mem_cons, he, false_or]
      exact hlater

end Pollination

section Keys

theorem splitColon_toList {key b t r : String} (h : splitColon key = [b, t, r]) :
    key.toList = b.toList ++ ':' :: (t.toList ++ ':' :: r.toList) := by
  have hjoin : [':'].intercalate (key.toList.splitOn ':') = key.toList :=
    List.intercalate_splitOn ':'
  obtain ⟨cs, hcs⟩ : ∃ cs, key.toList.splitOn ':' = cs := ⟨_, rfl⟩
  rw [splitColon, hcs] at h
  rw [hcs] at hjoin
  match cs, h with
  | [cb, ct, cr], h =>
    simp only [List.map_cons, List.map_nil, List.cons.injEq, and_true] at h
    obtain ⟨rfl, rfl, rfl⟩ := h
    rw [← hjoin]
    simp [List.intercalate]

theorem adjacentTimes_spec (time : String) :
    (adjacentTimes time).Nodup ∧ time ∉ adjacentTimes time := by
  fun_cases adjacentTimes time <;> simp_all [eq_comm]

theorem joined_inj {b r t t' : String}
    (h : b ++ ":" ++ t ++ ":" ++ r = b ++ ":" ++ t' ++ ":" ++ r) : t = t' := by
  have hlist := congrArg String.toList h
  simp only [String.toList_append] at hlist
  have hright := List.append_cancel_right (List.append_cancel_right hlist)
  rw [List.append_assoc, List.append_assoc] at hright
  have hleft := List.append_cancel_left (List.append_cancel_left hright)
  exact String.toList_inj.mp hleft

/-- The adjacent keys differ from each other and from the key of the observed time. -/
theorem adjacentKeys_spec {key : String} :
    (adjacentKeys key (keyTime key)).Nodup ∧ key ∉ adjacentKeys key (keyTime key) := by
  rw [adjacentKeys]
  split
  · rename_i b t r hsplit
    have hkey := splitColon_toList hsplit
    have hparts : keyParts key = [b, t, r] := by
      rw [keyParts, if_pos (by rw [hkey]; simp), hsplit]
    have htime : keyTime key = t := by
      rw [keyTime, hparts]
      rfl
    obtain ⟨hnodup, hnotMem⟩ := adjacentTimes_spec t
    rw [htime]
    refine ⟨hnodup.map fun a a' h => joined_inj h, ?_⟩
    intro hmem
    obtain ⟨adj, hadj, hjoined⟩ := List.mem_map.mp hmem
    have hself : key = b ++ ":" ++ t ++ ":" ++ r := by
      rw [← String.toList_inj, hkey]
      simp [String.toList_append]
    have hsame := joined_inj (hjoined.trans hself)
    rw [hsame] at hadj
    exact hnotMem hadj
  · exact ⟨List.nodup_nil, List.not_mem_nil⟩

end Keys

section Weights

variable {s : GaussianThompsonState ℝ} {rate : ℝ} {ctx : CtxPosterior ℝ} {now : ℤ}

theorem minStd_sq : (minStd : ℝ) * minStd = 100 := by norm_num [minStd]

theorem obsVariance_ge (s : GaussianThompsonState ℝ) : 100 ≤ obsVariance s := by
  rw [obsVariance, max_exact, minStd_sq]
  exact le_max_left _ _

theorem revenueWeight_bounds (h : 0 ≤ rate) :
    1 / 100 ≤ revenueWeight rate ∧ revenueWeight rate ≤ 1 := by
  rw [revenueWeight, min_exact]
  norm_num
  linarith

theorem timeSimilarity_bounds (a b : String) :
    0 < (timeSimilarity a b : ℝ) ∧ (timeSimilarity a b : ℝ) ≤ 1 := by
  rw [timeSimilarity]
  split
  · norm_num
  · split <;> norm_num

theorem timeSimilarity_full {a b : String}
    (h : (timeSimilarity a b : ℝ) ≤ 1.0 ∧ (1.0 : ℝ) ≤ timeSimilarity a b) : a = b := by
  by_contra hne
  have hlow := h.2
  rw [timeSimilarity, if_neg hne] at hlow
  split at hlow <;> norm_num at hlow

/-- The weight of an own observation: at most that of an S context at the smallest variance. -/
theorem obsPrecision_bounds (s : GaussianThompsonState ℝ) (key bucket : String) (h : 0 ≤ rate) :
    0 < obsPrecision s key bucket rate ∧ obsPrecision s key bucket rate ≤ 13 / 1000 := by
  obtain ⟨hrate, hrate1⟩ := revenueWeight_bounds h
  obtain ⟨htime, htime1⟩ := timeSimilarity_bounds bucket (keyTime key)
  have hvar := obsVariance_ge s
  have hrole : (0 : ℝ) < (if keyRole key = "S" then 1.3 else 1.0) ∧
      (if keyRole key = "S" then 1.3 else 1.0 : ℝ) ≤ 13 / 10 := by
    split <;> norm_num
  have hw : 0 < revenueWeight rate * timeSimilarity bucket (keyTime key) :=
    mul_pos (by linarith) htime
  have hw1 : revenueWeight rate * timeSimilarity bucket (keyTime key) ≤ 1 :=
    mul_le_one₀ hrate1 htime.le htime1
  rw [obsPrecision]
  constructor
  · exact div_pos (mul_pos hw hrole.1) (by linarith)
  · rw [div_le_iff₀ (by linarith)]
    have htop := mul_le_mul hw1 hrole.2 hrole.1.le zero_le_one
    linarith

theorem crossPrecision_pos (s : GaussianThompsonState ℝ) (h : 0 ≤ rate) :
    0 < crossPrecision s rate := by
  have hrate := (revenueWeight_bounds h).1
  have hvar := obsVariance_ge s
  rw [crossPrecision]
  apply div_pos
  · norm_num
    linarith
  · linarith

theorem decayedPrecision_ge (ctx : CtxPosterior ℝ) (now : ℤ) :
    1 / 40000 ≤ decayedPrecision ctx now := by
  rw [decayedPrecision, max_exact]
  apply le_max_of_le_right
  norm_num

theorem decayedPrecision_le (hnow : ctx.lastUpdate ≤ now) (h1 : ctx.precision ≤ 1) :
    decayedPrecision ctx now ≤ 98 / 100 := by
  have hage : (0 : ℝ) ≤ hoursBetween now ctx.lastUpdate := by
    have hgap : (0 : ℝ) ≤ ((now - ctx.lastUpdate : ℤ) : ℝ) := by
      exact_mod_cast sub_nonneg.mpr hnow
    rw [hoursBetween, ofInt_exact]
    exact div_nonneg hgap (by norm_num)
  have hfade : halfLife (hoursBetween now ctx.lastUpdate) decayHours ≤ (1 : ℝ) :=
    Real.rpow_le_one (by norm_num) (by norm_num) (div_nonneg hage (by norm_num [decayHours]))
  have haged : (if 0 < ctx.lastUpdate then
      ctx.precision * halfLife (hoursBetween now ctx.lastUpdate) decayHours
      else ctx.precision) ≤ 1 := by
    split
    · exact mul_le_one₀ h1 (halfLife_pos _ _).le hfade
    · exact h1
  rw [decayedPrecision, max_exact]
  apply max_le
  · have hdecay : (ctxPrecisionDecay : ℝ) = 98 / 100 := by norm_num [ctxPrecisionDecay]
    rw [hdecay]
    linarith
  · norm_num

theorem initContext_precision (s : GaussianThompsonState ℝ) (key : String) (now : ℤ) :
    (initContext s key now).precision ≤ 1 := by
  have hvar : (100 : ℝ) ≤ max (F64Functions.powf (if keyRole key = "S" then
      s.posteriorStd * secondaryExploreBoost else s.posteriorStd) 2.0) (minStd * minStd) := by
    rw [minStd_sq]
    exact le_max_right _ _
  have hone : (1.0 : ℝ) = 1 := by norm_num
  rw [initContext]
  simp only [max_exact, hone]
  rw [div_le_one (by linarith)]
  linarith

end Weights

section Calls

/-- A window that reaches the contextual memory, with the learner as it is then. -/
structure Call where
  learner : GaussianThompsonState ℝ
  key : String
  fee : ℝ
  revenueRate : ℝ
  timeBucket : String
  now : ℤ
  std : 10 ≤ learner.posteriorStd
  fee_nonneg : 0 ≤ fee
  rate_nonneg : 0 ≤ revenueRate
  time : 1 ≤ now

/-- The contexts, and for every key the posterior mean its context was created from and the fees
that were recorded into it since. -/
structure Memory where
  contexts : Contexts ℝ
  sources : String → List ℝ

def Memory.fresh : Memory := ⟨[], fun _ => []⟩

/-- The adjacent buckets that a window in the bucket of its own context pollinates. -/
def Call.pollinates (c : Call) : List String :=
  if c.timeBucket = keyTime c.key then adjacentKeys c.key c.timeBucket else []

def Call.over (c : Call) (contexts : Contexts ℝ) : GaussianThompsonState ℝ :=
  { c.learner with contextualPosteriors := contexts }

def Call.update (c : Call) (contexts : Contexts ℝ) : Contexts ℝ :=
  (updateContextual (c.over contexts) c.key c.fee c.revenueRate c.timeBucket
    c.now).contextualPosteriors

def Memory.step (m : Memory) (c : Call) : Memory where
  contexts := c.update m.contexts
  sources := fun k =>
    if k = c.key then
      (if k ∈ m.contexts.map Prod.fst then m.sources k else [c.learner.posteriorMean]) ++ [c.fee]
    else if k ∈ c.pollinates then m.sources k ++ [c.fee]
    else m.sources k

def Memory.run (calls : List Call) : Memory := calls.foldl Memory.step .fresh

theorem run_concat (calls : List Call) (c : Call) :
    Memory.run (calls ++ [c]) = (Memory.run calls).step c := by
  rw [Memory.run, List.foldl_append]
  rfl

variable {m : Memory} {c : Call} {e : String × CtxPosterior ℝ}

inductive Derived (m : Memory) (c : Call) : String × CtxPosterior ℝ → Prop
  | created (h : c.key ∉ m.contexts.map Prod.fst) :
    Derived m c (c.key, ownUpdate c.learner c.key c.timeBucket c.fee c.revenueRate c.now
      (initContext c.learner c.key c.now))
  | own {ctx} (h : (c.key, ctx) ∈ m.contexts) :
    Derived m c (c.key, ownUpdate c.learner c.key c.timeBucket c.fee c.revenueRate c.now ctx)
  | crossed {key ctx} (hne : key ≠ c.key) (hkey : key ∈ c.pollinates)
      (h : (key, ctx) ∈ m.contexts) :
    Derived m c (key, crossUpdate c.learner c.fee c.revenueRate ctx)
  | kept {key ctx} (hne : key ≠ c.key) (h : (key, ctx) ∈ m.contexts) : Derived m c (key, ctx)

theorem obsVariance_over (c : Call) (contexts : Contexts ℝ) :
    obsVariance (c.over contexts) = obsVariance c.learner := rfl

theorem ownUpdate_over (c : Call) (contexts : Contexts ℝ) :
    ownUpdate (c.over contexts) = ownUpdate c.learner := by
  funext key bucket fee rate now ctx
  simp only [ownUpdate, obsPrecision, obsVariance_over]

theorem pollinate_over (c : Call) (contexts : Contexts ℝ) :
    pollinate (c.over contexts) = pollinate c.learner := by
  funext fee rate contexts' key
  simp only [pollinate, crossUpdate, crossPrecision, obsVariance_over]

structure Ensured (m : Memory) (c : Call) (ensured : Contexts ℝ) (ctx : CtxPosterior ℝ) : Prop where
  found : context? ensured c.key = some ctx
  distinct : (ensured.map Prod.fst).Nodup
  length : ensured.length ≤ m.contexts.length + 1
  older : ∀ e ∈ m.contexts, e ∈ ensured
  newer : ∀ e ∈ ensured, e.1 ≠ c.key → e ∈ m.contexts
  origin : (c.key, ctx) ∈ m.contexts ∨
    c.key ∉ m.contexts.map Prod.fst ∧ ctx = initContext c.learner c.key c.now

theorem ensureContext_spec (c : Call) (hnodup : (m.contexts.map Prod.fst).Nodup) :
    ∃ ctx, Ensured m c (ensureContext (c.over m.contexts) c.key c.now) ctx := by
  have hcontexts : (c.over m.contexts).contextualPosteriors = m.contexts := rfl
  rw [ensureContext, hcontexts]
  cases hctx : context? m.contexts c.key with
  | some ctx =>
    exact ⟨ctx, hctx, hnodup, Nat.le_succ _, fun e he => he, fun e he _ => he,
      .inl (context?_mem hctx)⟩
  | none =>
    have hnew := notMem_of_context?_none hctx
    refine ⟨initContext c.learner c.key c.now, ?_, ?_, ?_, ?_, ?_, .inr ⟨hnew, rfl⟩⟩
    · have hfind := Option.map_eq_none_iff.mp hctx
      rw [context?, List.find?_append, hfind]
      simp
      rfl
    · rw [List.map_append, List.nodup_append]
      refine ⟨hnodup, by simp, ?_⟩
      intro k hk k' hk' hkk
      obtain rfl := List.mem_singleton.mp hk'
      rw [hkk] at hk
      exact hnew hk
    · rw [List.length_append, List.length_singleton]
    · intro e he
      exact List.mem_append_left _ he
    · intro e he hne
      rcases List.mem_append.mp he with he | he
      · exact he
      · obtain rfl := List.mem_singleton.mp he
        exact absurd rfl hne

theorem step_contexts {ensured : Contexts ℝ} {ctx : CtxPosterior ℝ}
    (hensured : ensureContext (c.over m.contexts) c.key c.now = ensured)
    (h : Ensured m c ensured ctx) :
    (m.step c).contexts = pruneContexts
      (c.pollinates.foldl (pollinate c.learner c.fee c.revenueRate)
        (setContext c.key
          (ownUpdate c.learner c.key c.timeBucket c.fee c.revenueRate c.now ctx) ensured)) := by
  change (updateContextual _ _ _ _ _ _).contextualPosteriors = _
  rw [updateContextual]
  simp only [hensured, h.found, ownUpdate_over, updateRelatedTimeContexts_eq, pollinate_over]
  rw [Call.pollinates]
  by_cases htime : c.timeBucket = keyTime c.key
  · have hfull : (timeSimilarity c.timeBucket (keyTime c.key) : ℝ) = 1.0 := if_pos htime
    rw [if_pos ⟨hfull.le, hfull.ge⟩, if_pos htime]
  · rw [if_neg fun h => htime (timeSimilarity_full h), if_neg htime, List.foldl_nil]

theorem pollinates_spec (c : Call) : c.pollinates.Nodup ∧ c.key ∉ c.pollinates := by
  rw [Call.pollinates]
  split
  · rename_i htime
    rw [htime]
    exact adjacentKeys_spec
  · exact ⟨List.nodup_nil, List.not_mem_nil⟩

theorem own_derived {key : String} {ctx : CtxPosterior ℝ}
    (h : (c.key, ctx) ∈ m.contexts ∨
      c.key ∉ m.contexts.map Prod.fst ∧ ctx = initContext c.learner c.key c.now)
    (hkey : key = c.key) :
    Derived m c (key, ownUpdate c.learner c.key c.timeBucket c.fee c.revenueRate c.now ctx) := by
  subst hkey
  rcases h with h | ⟨h, rfl⟩
  · exact .own h
  · exact .created h

theorem step_derived (hnodup : (m.contexts.map Prod.fst).Nodup) :
    (m.step c).contexts.length ≤ 130 ∧ ((m.step c).contexts.map Prod.fst).Nodup ∧
      ∀ e ∈ (m.step c).contexts, Derived m c e := by
  obtain ⟨ctx, hensured⟩ := ensureContext_spec c hnodup
  obtain ⟨hkeys, hself⟩ := pollinates_spec c
  rw [step_contexts rfl hensured]
  generalize ensureContext (c.over m.contexts) c.key c.now = ensured at hensured
  set updated := setContext c.key
    (ownUpdate c.learner c.key c.timeBucket c.fee c.revenueRate c.now ctx) ensured with hupdated
  have hdistinct : (updated.map Prod.fst).Nodup := by
    rw [hupdated, setContext_keys]
    exact hensured.distinct
  refine ⟨pruneContexts_length _, pruneContexts_nodup (by rwa [foldl_pollinate_keys]), ?_⟩
  intro e he
  have hupdate (e : String × CtxPosterior ℝ) (he : e ∈ updated) (hne : e.1 ≠ c.key) :
      e ∈ m.contexts := by
    rcases mem_setContext hensured.distinct he with rfl | ⟨he, -⟩
    · exact absurd rfl hne
    · exact hensured.newer e he hne
  rcases mem_foldl_pollinate hkeys hdistinct (mem_of_mem_prune he) with he | ⟨hmem, old, hold, hnew⟩
  · by_cases hkey : e.1 = c.key
    · rcases mem_setContext hensured.distinct he with rfl | ⟨-, hne⟩
      · exact own_derived hensured.origin rfl
      · exact absurd hkey hne
    · exact .kept hkey (hupdate e he hkey)
  · have hne : e.1 ≠ c.key := by
      intro hkey
      exact hself (hkey ▸ hmem)
    have hcrossed := Derived.crossed hne hmem (hupdate (e.1, old) hold hne)
    rw [← hnew] at hcrossed
    exact hcrossed

theorem step_unpruned (c : Call) (hnodup : (m.contexts.map Prod.fst).Nodup)
    (hlength : m.contexts.length < 130) :
    ∃ updated : Contexts ℝ, (updated.map Prod.fst).Nodup ∧ c.key ∈ updated.map Prod.fst ∧
      (∀ e ∈ m.contexts, e.1 ≠ c.key → e ∈ updated) ∧
      (m.step c).contexts =
        c.pollinates.foldl (pollinate c.learner c.fee c.revenueRate) updated := by
  obtain ⟨ctx, hensured⟩ := ensureContext_spec c hnodup
  rw [step_contexts rfl hensured]
  generalize ensureContext (c.over m.contexts) c.key c.now = ensured at hensured
  set updated := setContext c.key
    (ownUpdate c.learner c.key c.timeBucket c.fee c.revenueRate c.now ctx) ensured with hupdated
  have hkeys : updated.map Prod.fst = ensured.map Prod.fst := setContext_keys _ _ _
  have hall :
      (c.pollinates.foldl (pollinate c.learner c.fee c.revenueRate) updated).length ≤ 130 := by
    have hlen := congrArg List.length
      (@foldl_pollinate_keys c.learner c.fee c.revenueRate c.pollinates updated)
    rw [List.length_map, List.length_map] at hlen
    rw [hlen, hupdated, setContext_length]
    have := hensured.length
    omega
  refine ⟨updated, ?_, ?_, ?_, if_neg (by omega)⟩
  · rw [hkeys]
    exact hensured.distinct
  · rw [hkeys]
    exact List.mem_map_of_mem (context?_mem hensured.found)
  · intro e he hne
    exact mem_setContext_of_ne (hensured.older e he) hne

theorem crossed_mem (hnodup : (m.contexts.map Prod.fst).Nodup) (hlength : m.contexts.length < 130)
    (he : e ∈ m.contexts) (hkey : e.1 ∈ c.pollinates) :
    (e.1, crossUpdate c.learner c.fee c.revenueRate e.2) ∈ (m.step c).contexts := by
  obtain ⟨updated, hdistinct, -, holder, hstep⟩ := step_unpruned c hnodup hlength
  obtain ⟨hkeys, hself⟩ := pollinates_spec c
  have hne : e.1 ≠ c.key := by
    intro heq
    exact hself (heq ▸ hkey)
  have hmem := @mem_foldl_pollinate_of_mem c.learner c.fee c.revenueRate updated e c.pollinates
    hkeys hdistinct (holder e he hne)
  rw [if_pos hkey] at hmem
  rw [hstep]
  exact hmem

theorem own_mem (c : Call) (hnodup : (m.contexts.map Prod.fst).Nodup)
    (hlength : m.contexts.length < 130) : c.key ∈ (m.step c).contexts.map Prod.fst := by
  obtain ⟨updated, -, hown, -, hstep⟩ := step_unpruned c hnodup hlength
  rw [hstep, foldl_pollinate_keys]
  exact hown

end Calls

section Runs

structure Kept (calls : List Call) (m : Memory) : Prop where
  length : m.contexts.length ≤ 130
  distinct : (m.contexts.map Prod.fst).Nodup
  hull : ∀ e ∈ m.contexts, Hull (m.sources e.1) e.2.mean
  precision : ∀ e ∈ m.contexts, 1 / 40000 ≤ e.2.precision
  updated : ∀ e ∈ m.contexts, ∃ c ∈ calls, e.2.lastUpdate = c.now

structure Relearnable (m : Memory) : Prop where
  length : m.contexts.length ≤ 130
  distinct : (m.contexts.map Prod.fst).Nodup
  hull : ∀ e ∈ m.contexts, Hull (m.sources e.1) e.2.mean
  precision : ∀ e ∈ m.contexts, 1 / 40000 ≤ e.2.precision ∧ e.2.precision ≤ 1

/-- Every context that the call pollinates has room under 1 for the call's share. -/
def HasRoom (m : Memory) (c : Call) : Prop :=
  ∀ e ∈ m.contexts, e.1 ∈ c.pollinates →
    e.2.precision ≤ 1 - crossPrecision c.learner c.revenueRate

variable {calls : List Call} {m : Memory} {c : Call}

theorem own_precision_ge (c : Call) (ctx : CtxPosterior ℝ) : 1 / 40000 ≤
    (ownUpdate c.learner c.key c.timeBucket c.fee c.revenueRate c.now ctx).precision := by
  have hobs := (obsPrecision_bounds c.learner c.key c.timeBucket c.rate_nonneg).1
  have hdecayed := decayedPrecision_ge ctx c.now
  change 1 / 40000 ≤ decayedPrecision ctx c.now + obsPrecision _ _ _ _
  linarith

theorem own_hull {xs : List ℝ} (c : Call) (ctx : CtxPosterior ℝ) (h : Hull xs ctx.mean) :
    Hull (xs ++ [c.fee])
      (ownUpdate c.learner c.key c.timeBucket c.fee c.revenueRate c.now ctx).mean := by
  have hdecayed := decayedPrecision_ge ctx c.now
  exact h.blend (by linarith) (obsPrecision_bounds c.learner c.key c.timeBucket c.rate_nonneg).1

theorem Kept.step (h : Kept calls m) (c : Call) : Kept (calls ++ [c]) (m.step c) := by
  obtain ⟨hlength, hdistinct, hderived⟩ := @step_derived m c h.distinct
  refine ⟨hlength, hdistinct, ?_, ?_, ?_⟩
  · intro e he
    cases hderived e he with
    | created hnew =>
      simp only [Memory.step, if_true, if_neg hnew]
      exact own_hull c _ (hull_of_mem (by simp [initContext]))
    | own hmem =>
      have hold : c.key ∈ m.contexts.map Prod.fst := List.mem_map_of_mem hmem
      simp only [Memory.step, if_true, if_pos hold]
      exact own_hull c _ (h.hull _ hmem)
    | crossed hne hkey hmem =>
      simp only [Memory.step, if_neg hne, if_pos hkey]
      have hprecision := h.precision _ hmem
      exact (h.hull _ hmem).blend (by linarith) (crossPrecision_pos c.learner c.rate_nonneg)
    | kept hne hmem =>
      simp only [Memory.step, if_neg hne]
      split
      · exact (h.hull _ hmem).append c.fee
      · exact h.hull _ hmem
  · intro e he
    cases hderived e he with
    | created hnew => exact own_precision_ge c _
    | own hmem => exact own_precision_ge c _
    | @crossed key ctx hne hkey hmem =>
      have hcross := crossPrecision_pos c.learner c.rate_nonneg
      have hprecision := h.precision _ hmem
      change 1 / 40000 ≤ ctx.precision + crossPrecision _ _
      linarith
    | kept hne hmem => exact h.precision _ hmem
  · intro e he
    have holder (ctx : CtxPosterior ℝ) (key : String) (hmem : (key, ctx) ∈ m.contexts) :
        ∃ c' ∈ calls ++ [c], ctx.lastUpdate = c'.now := by
      obtain ⟨c', hc', hlast⟩ := h.updated _ hmem
      exact ⟨c', List.mem_append_left _ hc', hlast⟩
    cases hderived e he with
    | created hnew => exact ⟨c, by simp, rfl⟩
    | own hmem => exact ⟨c, by simp, rfl⟩
    | @crossed key ctx hne hkey hmem => exact holder ctx key hmem
    | kept hne hmem => exact holder _ _ hmem

theorem run_kept (calls : List Call) : Kept calls (.run calls) := by
  induction calls using List.reverseRecOn with
  | nil =>
    refine ⟨by simp [Memory.run, Memory.fresh], by simp [Memory.run, Memory.fresh], ?_, ?_, ?_⟩ <;>
      (intro e he; exact absurd he List.not_mem_nil)
  | append_singleton calls c ih =>
    rw [run_concat]
    exact ih.step c

/-- Own updates never reach 1, and a pollination does not where it finds room. -/
theorem precision_step (h : Kept calls m) (hle : ∀ e ∈ m.contexts, e.2.precision ≤ 1)
    (hnow : ∀ c' ∈ calls, c'.now ≤ c.now) (hroom : HasRoom m c) :
    ∀ e ∈ (m.step c).contexts, e.2.precision ≤ 1 := by
  have hown (ctx : CtxPosterior ℝ) (hlast : ctx.lastUpdate ≤ c.now) (hone : ctx.precision ≤ 1) :
      (ownUpdate c.learner c.key c.timeBucket c.fee c.revenueRate c.now ctx).precision ≤ 1 := by
    have hobs := (obsPrecision_bounds c.learner c.key c.timeBucket c.rate_nonneg).2
    have hdecayed := decayedPrecision_le hlast hone
    change decayedPrecision ctx c.now + obsPrecision _ _ _ _ ≤ 1
    linarith
  intro e he
  cases (@step_derived m c h.distinct).2.2 e he with
  | created hnew => exact hown _ le_rfl (initContext_precision _ _ _)
  | own hmem =>
    obtain ⟨c', hc', hlast⟩ := h.updated _ hmem
    exact hown _ (hlast.trans_le (hnow c' hc')) (hle _ hmem)
  | @crossed key ctx hne hkey hmem =>
    have hspace := hroom _ hmem hkey
    change ctx.precision + crossPrecision _ _ ≤ 1
    linarith
  | kept hne hmem => exact hle _ hmem

theorem overflow_step (h : Kept calls m) (hlength : m.contexts.length < 130)
    (hroom : ¬HasRoom m c) : ∃ e ∈ (m.step c).contexts, 1 < e.2.precision := by
  rw [HasRoom] at hroom
  push Not at hroom
  obtain ⟨e, he, hkey, hover⟩ := hroom
  refine ⟨_, crossed_mem h.distinct hlength he hkey, ?_⟩
  change 1 < e.2.precision + crossPrecision _ _
  linarith

/-- Along a run in time every context stays relearnable as long as every pollination finds room,
and the first one that finds none in a memory that has not filled up ends that. -/
theorem contexts_stay_relearnable (calls : List Call)
    (hsorted : calls.Pairwise fun a b => a.now ≤ b.now) :
    ((∀ before c, before ++ [c] <+: calls → HasRoom (.run before) c) →
      ∀ before, before <+: calls → Relearnable (.run before)) ∧
    ∀ before c, before ++ [c] <+: calls → (Memory.run before).contexts.length < 130 →
      ¬HasRoom (.run before) c → ¬Relearnable (.run (before ++ [c])) := by
  constructor
  · intro hroom
    have hprecision (before : List Call) (hbefore : before <+: calls) :
        ∀ e ∈ (Memory.run before).contexts, e.2.precision ≤ 1 := by
      induction before using List.reverseRecOn with
      | nil =>
        intro e he
        exact absurd he List.not_mem_nil
      | append_singleton before c ih =>
        have hprefix : before <+: calls := (List.prefix_append before [c]).trans hbefore
        have hpair := hsorted.sublist hbefore.sublist
        rw [run_concat]
        apply precision_step (run_kept before) (ih hprefix) _ (hroom before c hbefore)
        intro c' hc'
        exact (List.pairwise_append.mp hpair).2.2 c' hc' c (List.mem_singleton.mpr rfl)
    intro before hbefore
    have hkept := run_kept before
    exact ⟨hkept.length, hkept.distinct, hkept.hull,
      fun e he => ⟨hkept.precision e he, hprecision before hbefore e he⟩⟩
  · intro before c _ hlength hroom hrelearnable
    obtain ⟨e, he, hover⟩ := overflow_step (run_kept before) hlength hroom
    rw [run_concat] at hrelearnable
    exact not_lt.mpr (hrelearnable.precision e he).2 hover

end Runs

section Pollinated

def settled : GaussianThompsonState ℝ := { GaussianThompsonState.default with posteriorStd := 10 }

def earningWindow (key bucket : String) (now : ℤ) (h : 1 ≤ now) : Call where
  learner := settled
  key := key
  fee := 100.0
  revenueRate := 99.0
  timeBucket := bucket
  now := now
  std := le_rfl
  fee_nonneg := by norm_num
  rate_nonneg := by norm_num
  time := h

def lowWindow : Call := earningWindow "balanced:low:P" "low" 1 le_rfl
def normalWindow : Call := earningWindow "balanced:normal:P" "normal" 2 (by norm_num)

theorem settled_share : crossPrecision settled 99.0 = 1 / 1000 := by
  have hsq : (10 : ℝ) ^ (2.0 : ℝ) = 100 := by
    rw [show (2.0 : ℝ) = ((2 : ℕ) : ℝ) by norm_num, Real.rpow_natCast]
    norm_num
  have hvar : obsVariance settled = 100 := by
    rw [obsVariance, max_exact, minStd_sq]
    change max 100 ((10 : ℝ) ^ (2.0 : ℝ)) = 100
    rw [hsq, max_self]
  have hrate : revenueWeight (99.0 : ℝ) = 1 := by
    rw [revenueWeight, min_exact]
    norm_num
  rw [crossPrecision, hvar, hrate]
  norm_num

theorem normalWindow_pollinates :
    normalWindow.pollinates = ["balanced:low:P", "balanced:peak:P"] := by
  have htime : normalWindow.timeBucket = keyTime normalWindow.key := by decide
  rw [Call.pollinates, if_pos htime]
  decide

def lowThenNormal (n : ℕ) : List Call := lowWindow :: List.replicate n normalWindow

theorem lowThenNormal_succ (n : ℕ) : lowThenNormal (n + 1) = lowThenNormal n ++ [normalWindow] := by
  rw [lowThenNormal, lowThenNormal, List.replicate_succ', List.cons_append]

theorem lowThenNormal_keys (n : ℕ) :
    (Memory.run (lowThenNormal n)).contexts.map Prod.fst ⊆
      ["balanced:low:P", "balanced:normal:P"] := by
  have hstep {m : Memory} (c : Call) (hnodup : (m.contexts.map Prod.fst).Nodup)
      (hkey : c.key ∈ ["balanced:low:P", "balanced:normal:P"])
      (h : m.contexts.map Prod.fst ⊆ ["balanced:low:P", "balanced:normal:P"]) :
      (m.step c).contexts.map Prod.fst ⊆ ["balanced:low:P", "balanced:normal:P"] := by
    intro k hk
    obtain ⟨e, he, rfl⟩ := List.mem_map.mp hk
    cases (@step_derived m c hnodup).2.2 e he with
    | created hnew => exact hkey
    | own hmem => exact hkey
    | crossed hne hcrossed hmem => exact h (List.mem_map.mpr ⟨_, hmem, rfl⟩)
    | kept hne hmem => exact h (List.mem_map_of_mem hmem)
  induction n with
  | zero => exact hstep lowWindow List.nodup_nil (by decide) (List.nil_subset _)
  | succ n ih =>
    rw [lowThenNormal_succ, run_concat]
    exact hstep normalWindow (run_kept _).distinct (by decide) ih

theorem lowThenNormal_length (n : ℕ) : (Memory.run (lowThenNormal n)).contexts.length < 130 := by
  have hsub := (run_kept (lowThenNormal n)).distinct.subperm (lowThenNormal_keys n)
  have hlength := hsub.length_le
  rw [List.length_map] at hlength
  exact hlength.trans_lt (by decide)

/-- Every normal window adds a thousandth to the low context, and nothing takes it away. -/
theorem lowThenNormal_precision (n : ℕ) : ∃ ctx,
    ("balanced:low:P", ctx) ∈ (Memory.run (lowThenNormal n)).contexts ∧
      (n : ℝ) / 1000 ≤ ctx.precision := by
  induction n with
  | zero =>
    have hown := own_mem (m := .fresh) lowWindow List.nodup_nil (by decide)
    obtain ⟨e, he, hkey⟩ := List.mem_map.mp hown
    have hprecision := (run_kept [lowWindow]).precision e he
    refine ⟨e.2, ?_, ?_⟩
    · have hlow : e.1 = "balanced:low:P" := hkey
      rw [← hlow]
      exact he
    · rw [Nat.cast_zero, zero_div]
      linarith
  | succ n ih =>
    obtain ⟨ctx, hmem, hprecision⟩ := ih
    have hcrossed := crossed_mem (c := normalWindow) (run_kept (lowThenNormal n)).distinct
      (lowThenNormal_length n) hmem (by rw [normalWindow_pollinates]; simp)
    rw [lowThenNormal_succ, run_concat]
    refine ⟨_, hcrossed, ?_⟩
    have hshare : crossPrecision normalWindow.learner normalWindow.revenueRate = 1 / 1000 :=
      settled_share
    change _ ≤ ctx.precision + crossPrecision normalWindow.learner normalWindow.revenueRate
    rw [hshare]
    push_cast
    linarith

/-- A thousand and one windows of the normal bucket leave the low context past any weight of a fresh
observation. -/
theorem pollination_outgrows :
    ¬∀ calls : List Call, calls.Pairwise (fun a b => a.now ≤ b.now) →
      ∀ before, before <+: calls → Relearnable (.run before) := by
  intro hclaim
  have hsorted : (lowThenNormal 1001).Pairwise fun a b => a.now ≤ b.now := by
    rw [lowThenNormal, List.pairwise_cons]
    refine ⟨?_, List.pairwise_replicate.mpr (.inr le_rfl)⟩
    intro c hc
    rw [List.eq_of_mem_replicate hc]
    decide
  have hrelearnable := hclaim _ hsorted _ (List.prefix_refl _)
  obtain ⟨ctx, hmem, hprecision⟩ := lowThenNormal_precision 1001
  have hle := (hrelearnable.precision _ hmem).2
  norm_num at hprecision
  linarith

theorem low_and_normal_relearnable : Relearnable (.run [lowWindow, normalWindow]) := by
  have hsorted : [lowWindow, normalWindow].Pairwise fun a b => a.now ≤ b.now := by
    simp [lowWindow, normalWindow, earningWindow]
  apply (contexts_stay_relearnable [lowWindow, normalWindow] hsorted).1 _ _ (List.prefix_refl _)
  rintro (_ | ⟨first, _ | ⟨second, before⟩⟩) c ⟨after, hcalls⟩
  · intro e he
    exact absurd he List.not_mem_nil
  · obtain ⟨rfl, rfl, -⟩ : first = lowWindow ∧ c = normalWindow ∧ after = [] := by
      simpa using hcalls
    intro e he hkey
    have hshare : crossPrecision normalWindow.learner normalWindow.revenueRate = 1 / 1000 :=
      settled_share
    rw [hshare]
    cases (@step_derived .fresh lowWindow List.nodup_nil).2.2 e he with
    | created hnew =>
      have hobs := (obsPrecision_bounds lowWindow.learner lowWindow.key lowWindow.timeBucket
        lowWindow.rate_nonneg).2
      have hdecayed := @decayedPrecision_le
        (initContext lowWindow.learner lowWindow.key lowWindow.now) lowWindow.now le_rfl
        (initContext_precision _ _ _)
      change decayedPrecision _ _ + obsPrecision _ _ _ _ ≤ _
      linarith
    | own hmem => exact absurd hmem List.not_mem_nil
    | crossed hne hcrossed hmem => exact absurd hmem List.not_mem_nil
    | kept hne hmem => exact absurd hmem List.not_mem_nil
  · have hlength := congrArg List.length hcalls
    simp at hlength

end Pollinated

end

end ContextualRuns
