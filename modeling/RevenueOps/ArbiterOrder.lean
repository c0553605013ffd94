import RevenueOps.Arbiter

/-! When batch arbitration depends on the order of its input. Candidates of one sort key keep
the order in which they came, and that order reaches the result. -/
namespace Arbiter

open EconIntents IntentProposal StableSelection

def OrderIndependent (l : List FullEnvelope) (now : ℤ) (extended : Bool) : Prop :=
  ∀ m : List FullEnvelope, m.Perm l → arbitrate m now extended = arbitrate l now extended

def Stale (now : ℤ) (env : FullEnvelope) : Bool := env.expiresAt.value ≤ now

/-- Two candidates on one side of the expiry that share the sort key are one. -/
def Separated (l : List FullEnvelope) (now : ℤ) : Prop :=
  ∀ a ∈ l, ∀ b ∈ l, Stale now a = Stale now b → sortKey a = sortKey b → a = b

/-- The sort key ends in the intent id, and that is derived from the idempotency key. -/
def TiesShareKey (l : List FullEnvelope) : Prop :=
  ∀ a ∈ l, ∀ b ∈ l, sortKey a = sortKey b → a.idempotencyKey = b.idempotencyKey

variable {l m : List FullEnvelope} {now : ℤ} {extended : Bool} {a b : FullEnvelope}

theorem filter_candidates_eq {p : FullEnvelope → Bool} (hp : m.Perm l)
    (hsep : ∀ a ∈ l, ∀ b ∈ l, p a = true → p b = true → sortKey a = sortKey b → a = b) :
    (sortByKey sortKey m).filter p = (sortByKey sortKey l).filter p := by
  have hperm : (sortByKey sortKey m).Perm (sortByKey sortKey l) :=
    (perm_sortByKey m).trans (hp.trans (perm_sortByKey l).symm)
  refine eq_of_perm_of_separated (hperm.filter p) ((pairwise_sortByKey m).filter p)
    ((pairwise_sortByKey l).filter p) ?_
  intro a ha b hb hab
  rw [List.mem_filter] at ha hb
  have hmem : ∀ c ∈ sortByKey sortKey m, c ∈ l := fun c hc =>
    hp.mem_iff.mp ((perm_sortByKey m).mem_iff.mp hc)
  exact hsep a (hmem a ha.1) b (hmem b hb.1) ha.2 hb.2 hab

theorem orderIndependent_of_separated (hsep : Separated l now) :
    OrderIndependent l now extended := by
  intro m hp
  have hstale :
      (sortByKey sortKey m).filter (Stale now) = (sortByKey sortKey l).filter (Stale now) :=
    filter_candidates_eq hp fun a ha b hb hpa hpb => hsep a ha b hb (hpa.trans hpb.symm)
  have hfresh : (sortByKey sortKey m).filter (fun e => !Stale now e) =
      (sortByKey sortKey l).filter fun e => !Stale now e := by
    refine filter_candidates_eq hp fun a ha b hb hpa hpb => hsep a ha b hb ?_
    rw [Bool.not_eq_true'] at hpa hpb
    exact hpa.trans hpb.symm
  have hbatch : (candidates m).dropStale now = (candidates l).dropStale now := by
    unfold Stale at hstale hfresh
    simp only [candidates, Batch.dropStale, Batch.dropIf, hstale, hfresh]
  simp only [arbitrate, hbatch]

def staleDetail : String := "expired before arbitration"

def duplicateDetail : String := "duplicate idempotency key"

/-- From one batch to the next rejections are added, with details of neither text. -/
def Appends (b c : Batch) : Prop :=
  ∃ later, c.rejected = b.rejected ++ later ∧
    ∀ r ∈ later, r.detail ≠ staleDetail ∧ r.detail ≠ duplicateDetail

theorem Appends.trans {b c d : Batch} (h : Appends b c) (h' : Appends c d) : Appends b d := by
  obtain ⟨x, hx, hxd⟩ := h
  obtain ⟨y, hy, hyd⟩ := h'
  refine ⟨x ++ y, by rw [hy, hx, List.append_assoc], ?_⟩
  intro r hr
  cases List.mem_append.mp hr with
  | inl h => exact hxd r h
  | inr h => exact hyd r h

theorem dropIf_appends {b : Batch} {marked : FullEnvelope → Bool} {code : Code}
    {detail : FullEnvelope → String}
    (h : ∀ e, detail e ≠ staleDetail ∧ detail e ≠ duplicateDetail) :
    Appends b (b.dropIf marked code detail) := by
  refine ⟨_, rfl, ?_⟩
  intro r hr
  obtain ⟨e, _, rfl⟩ := List.mem_map.mp hr
  exact h e

theorem dropLosers_appends {κ : Type} [DecidableEq κ] {b : Batch}
    {slot : FullEnvelope → Option κ} {code : Code} {detail : FullEnvelope → String}
    (h : ∀ e, detail e ≠ staleDetail ∧ detail e ≠ duplicateDetail) :
    Appends b (b.dropLosers slot code detail) := by
  refine ⟨_, rfl, ?_⟩
  intro r hr
  obtain ⟨e, _, rfl⟩ := List.mem_map.mp hr
  exact h e.1

/-- A detail that starts with a letter other than theirs is neither. -/
theorem detail_ne {s : String} {c : Char} (hs : s.toList.head? = some c) (he : c ≠ 'e')
    (hd : c ≠ 'd') : s ≠ staleDetail ∧ s ≠ duplicateDetail := by
  constructor
  · rintro rfl
    exact he (Option.some.inj hs).symm
  · rintro rfl
    exact hd (Option.some.inj hs).symm

theorem resolve_appends (b : Batch) (extended : Bool) :
    Appends b.dropDuplicates (b.resolve extended) := by
  have hlegacy : Appends b.dropDuplicates b.dropDuplicates.dropContradictions.dropClosing := by
    refine (dropLosers_appends fun e => ?_).trans (dropIf_appends fun e => ?_)
    · exact @detail_ne _ 'c' (by simp [toString]) (by decide) (by decide)
    · exact @detail_ne _ 't' (by simp [toString]) (by decide) (by decide)
  cases extended with
  | false => exact hlegacy
  | true =>
    refine hlegacy.trans ((dropLosers_appends fun e => ?_).trans (dropIf_appends fun e => ?_))
    · exact @detail_ne _ 't' (by simp [toString]) (by decide) (by decide)
    · exact @detail_ne _ 't' (by simp [toString]) (by decide) (by decide)

def withDetail (rs : List Rejection) (d : String) : List FullEnvelope :=
  (rs.filter fun r => r.detail = d).map Rejection.env

theorem withDetail_append (rs rs' : List Rejection) (d : String) :
    withDetail (rs ++ rs') d = withDetail rs d ++ withDetail rs' d := by
  simp [withDetail]

theorem withDetail_of_all {rs : List Rejection} {d : String} (h : ∀ r ∈ rs, r.detail = d) :
    withDetail rs d = rs.map Rejection.env := by
  rw [withDetail, List.filter_eq_self.mpr fun r hr => by simpa using h r hr]

theorem withDetail_of_none {rs : List Rejection} {d : String} (h : ∀ r ∈ rs, r.detail ≠ d) :
    withDetail rs d = [] := by
  rw [withDetail, List.filter_eq_nil_iff.mpr fun r hr => by simpa using h r hr]
  rfl

def keySlot (env : FullEnvelope) : Option String := some env.idempotencyKey

def freshCandidates (l : List FullEnvelope) (now : ℤ) : List FullEnvelope :=
  (sortByKey sortKey l).filter fun e => !Stale now e

theorem details_differ : staleDetail ≠ duplicateDetail := by decide

theorem arbitrate_rejected (l : List FullEnvelope) (now : ℤ) (extended : Bool) :
    withDetail (arbitrate l now extended).rejected staleDetail =
        (sortByKey sortKey l).filter (Stale now) ∧
      withDetail (arbitrate l now extended).rejected duplicateDetail =
        (firstWins keySlot [] (freshCandidates l now)).2.map Prod.fst := by
  obtain ⟨later, hlater, hdetails⟩ := resolve_appends ((candidates l).dropStale now) extended
  let stale : List Rejection := ((sortByKey sortKey l).filter (Stale now)).map
    fun e => ⟨e, Code.intentStale.asStr, staleDetail⟩
  let lost : List Rejection := (firstWins keySlot [] (freshCandidates l now)).2.map
    fun e => ⟨e.1, Code.intentSuperseded.asStr, duplicateDetail⟩
  have hrejected : (arbitrate l now extended).rejected = stale ++ lost ++ later := by
    rw [show (arbitrate l now extended).rejected = _ from hlater]
    rfl
  have hstale : ∀ r ∈ stale, r.detail = staleDetail := by
    intro r hr
    obtain ⟨e, _, rfl⟩ := List.mem_map.mp hr
    rfl
  have hlost : ∀ r ∈ lost, r.detail = duplicateDetail := by
    intro r hr
    obtain ⟨e, _, rfl⟩ := List.mem_map.mp hr
    rfl
  have hsmap : stale.map Rejection.env = (sortByKey sortKey l).filter (Stale now) := by
    rw [List.map_map]
    exact List.map_id _
  have hlmap : lost.map Rejection.env =
      (firstWins keySlot [] (freshCandidates l now)).2.map Prod.fst := by
    rw [List.map_map]
    rfl
  rw [hrejected, withDetail_append, withDetail_append, withDetail_append, withDetail_append,
    withDetail_of_all hstale, withDetail_of_none fun r hr => hlost r hr ▸ details_differ.symm,
    withDetail_of_none fun r hr => (hdetails r hr).1,
    withDetail_of_none fun r hr => hstale r hr ▸ details_differ, withDetail_of_all hlost,
    withDetail_of_none fun r hr => (hdetails r hr).2, hsmap, hlmap]
  simp

theorem eq_of_perm_of_tail {α : Type} {xs ys : List α} (hp : xs.Perm ys) (ht : xs.tail = ys.tail) :
    xs = ys := by
  cases xs with
  | nil => exact (List.nil_perm.mp hp).symm
  | cons x xs =>
    cases ys with
    | nil => exact List.perm_nil.mp hp
    | cons y ys =>
      obtain rfl : xs = ys := ht
      have hswap : (xs ++ [x]).Perm (xs ++ [y]) :=
        (List.perm_append_singleton x xs).trans (hp.trans (List.perm_append_singleton y xs).symm)
      rw [List.perm_append_left_iff] at hswap
      rw [List.singleton_perm_singleton.mp hswap]

theorem exists_cons_perm {α : Type} {x : α} {xs : List α} (h : x ∈ xs) :
    ∃ ys, (x :: ys).Perm xs := by
  obtain ⟨s, t, rfl⟩ := List.append_of_mem h
  exact ⟨s ++ t, List.perm_middle.symm⟩

theorem filter_tied (p : FullEnvelope → Bool) (k : SortKey) (l : List FullEnvelope) :
    (((sortByKey sortKey l).filter p).filter fun e => sortKey e = k) =
      (l.filter fun e => sortKey e = k).filter p := by
  rw [List.filter_comm, filter_sortByKey]

theorem filter_fresh_tied (q : FullEnvelope → Bool) (k : SortKey) (l : List FullEnvelope)
    (now : ℤ) :
    ((freshCandidates l now).filter q).filter (fun e => sortKey e = k) =
      (l.filter fun e => sortKey e = k).filter fun e => q e && !Stale now e := by
  have hboth : (freshCandidates l now).filter q =
      (sortByKey sortKey l).filter fun e => q e && !Stale now e := List.filter_filter
  rw [hboth, filter_tied]

theorem eq_of_filter_swap {p q : FullEnvelope → Bool} {r : List FullEnvelope}
    (hpa : p a = true) (hpb : p b = true) (hqa : q a = true) (hqb : q b = true)
    (h : ((a :: b :: r).filter p).filter q = ((b :: a :: r).filter p).filter q) : a = b := by
  simp [hpa, hpb, hqa, hqb] at h
  exact h.1

/-- Where the order does not matter, two tied candidates that are both expired, or that are
both unexpired and share the idempotency key, are one. -/
theorem eq_of_orderIndependent (h : OrderIndependent l now extended) (ha : a ∈ l) (hb : b ∈ l)
    (hstale : Stale now a = Stale now b) (hkey : sortKey a = sortKey b)
    (hidem : a.idempotencyKey = b.idempotencyKey) : a = b := by
  by_contra hne
  obtain ⟨r, hr⟩ : ∃ r, (a :: b :: r).Perm l := by
    obtain ⟨t, ht⟩ := exists_cons_perm ha
    have hbt : b ∈ t := List.mem_of_ne_of_mem (Ne.symm hne) (ht.mem_iff.mpr hb)
    obtain ⟨r, hr⟩ := exists_cons_perm hbt
    exact ⟨r, (hr.cons a).trans ht⟩
  have hswap : (b :: a :: r).Perm l := (List.Perm.swap a b r).trans hr
  have hresult : arbitrate (a :: b :: r) now extended = arbitrate (b :: a :: r) now extended :=
    (h _ hr).trans (h _ hswap).symm
  obtain ⟨hs, hd⟩ := arbitrate_rejected (a :: b :: r) now extended
  obtain ⟨hs', hd'⟩ := arbitrate_rejected (b :: a :: r) now extended
  cases hexp : Stale now a with
  | true =>
    have heq : (sortByKey sortKey (a :: b :: r)).filter (Stale now) =
        (sortByKey sortKey (b :: a :: r)).filter (Stale now) := by
      rw [← hs, ← hs', hresult]
    have htied := congrArg (List.filter fun e => sortKey e = sortKey a) heq
    rw [filter_tied, filter_tied] at htied
    exact hne (eq_of_filter_swap (by simp) (by simp [hkey]) hexp (hstale ▸ hexp) htied)
  | false =>
    have hlost : (firstWins keySlot [] (freshCandidates (a :: b :: r) now)).2.map Prod.fst =
        (firstWins keySlot [] (freshCandidates (b :: a :: r) now)).2.map Prod.fst := by
      rw [← hd, ← hd', hresult]
    -- the winner of the key is missing from the lost, and the others stand in sorted order
    have htail := congrArg (List.filter fun e => keySlot e = some a.idempotencyKey) hlost
    rw [filter_firstWins_lost, filter_firstWins_lost, List.lookup_nil, if_pos rfl, if_pos rfl]
      at htail
    have hperm : (freshCandidates (a :: b :: r) now).Perm (freshCandidates (b :: a :: r) now) :=
      ((perm_sortByKey _).trans ((List.Perm.swap b a r).trans (perm_sortByKey _).symm)).filter _
    have hgroup := eq_of_perm_of_tail (hperm.filter _) htail
    have htied := congrArg (List.filter fun e => sortKey e = sortKey a) hgroup
    rw [filter_fresh_tied, filter_fresh_tied] at htied
    exact hne (eq_of_filter_swap (by simp) (by simp [hkey]) (by simp [keySlot, hexp])
      (by simp [keySlot, hidem, ← hstale, hexp]) htied)

/-- The order of the input does not matter exactly where the sort key separates the expired
candidates, and the unexpired ones, provided that tied candidates share the idempotency key.
That it is enough holds without the proviso. -/
theorem orderIndependent_iff (l : List FullEnvelope) (now : ℤ) (extended : Bool) :
    (Separated l now → OrderIndependent l now extended) ∧
      (TiesShareKey l → OrderIndependent l now extended → Separated l now) := by
  refine ⟨orderIndependent_of_separated, ?_⟩
  intro hties h a ha b hb hstale hkey
  exact eq_of_orderIndependent h ha hb hstale hkey (hties a ha b hb hkey)

theorem expiry_nonneg : (0 : ℤ) ≤ 200 := by decide

theorem expiry_bounded : (200 : ℤ) ≤ u63Max := by decide

/-- The five fields of the rebalance proposal, from another policy and with a later expiry. -/
def rivalFields : IntentFields :=
  { proposalFields .rebalance (some ⟨400000000, amount_nonneg, amount_bounded⟩) "rebalance" with
    expiresAt := ⟨200, expiry_nonneg, expiry_bounded⟩
    originPolicy := "planner" }

def rivalProposal : FullEnvelope :=
  rivalFields.toEnvelope ⟨"int-1119af2f103eb344", rebalanceId_valid⟩
    "1119af2f103eb34445d30decf78b97f16d11267a8fe66e6aa83b340abdbe33f4"

theorem rivalProposal_made : ∃ fields,
    @makeIntent knownDigests plainDebug fields = .ok rivalProposal :=
  ⟨rivalFields, @makeIntent_ok knownDigests plainDebug _ _ _ rebalanceId_valid
    rebalanceProposal_digest (by decide) (by decide)⟩

/-- Of two proposals with one identity the first to come is ordered. -/
theorem first_come_ordered :
    ¬ ∀ l : List FullEnvelope,
      (∀ e ∈ l, ∃ fields, @makeIntent knownDigests plainDebug fields = .ok e) →
        ∀ (now : ℤ) (extended : Bool), OrderIndependent l now extended := by
  intro h
  have hmade : ∀ e ∈ [rebalanceProposal, rivalProposal],
      ∃ fields, @makeIntent knownDigests plainDebug fields = .ok e := by
    intro e he
    simp only [List.mem_cons, List.not_mem_nil, or_false] at he
    cases he with
    | inl h => exact h ▸ rebalanceProposal_made
    | inr h => exact h ▸ rivalProposal_made
  have hresult := h _ hmade 0 false [rivalProposal, rebalanceProposal] (List.Perm.swap _ _ _)
  have hpolicy := congrArg (fun r => r.ordered.map FullEnvelope.originPolicy) hresult
  exact absurd hpolicy (by decide)

end Arbiter
