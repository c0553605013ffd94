import RevenueOps.IntentProposal
import RevenueOps.StableSelection
import Mathlib.Data.Prod.Lex
import Std.Data.ExtTreeMap

/-! Batch arbitration of candidate intents: sorted by a tie-break ladder, then six rules
in a fixed order, each of which drops some of the candidates that are left. -/
namespace Arbiter

open EconIntents IntentProposal StableSelection

def precedenceClass (env : FullEnvelope) : ℤ :=
  match env.intentType with
  | .maintainOnchainReserve => 1
  | .closeChannel => 3
  | .setFee | .setHtlcMax => 4
  | .rebalance | .swapIn | .swapOut => 5
  | .openChannel | .joinLiquiditySwap => 6

abbrev SortKey := ℤ ×ₗ ℤ ×ₗ ℤ ×ₗ ℤ ×ₗ ℤ ×ₗ String ×ₗ String

def sortKey (env : FullEnvelope) : SortKey :=
  toLex (precedenceClass env, toLex (-env.priority, toLex (-env.expectedBenefitMsat,
    toLex (-env.confidenceMicro.value, toLex (env.capitalCommittedMsat.value,
      toLex (env.target, env.intentId.text))))))

structure Rejection where
  env : FullEnvelope
  reasonCode : String
  detail : String

abbrev Superseded := Std.ExtTreeMap String String

structure ArbitrationResult where
  ordered : List FullEnvelope
  rejected : List Rejection
  superseded : Superseded

structure Batch where
  kept : List FullEnvelope
  rejected : List Rejection
  superseded : Superseded

namespace Batch

def dropIf (b : Batch) (marked : FullEnvelope → Bool) (code : Code)
    (detail : FullEnvelope → String) : Batch :=
  { kept := b.kept.filter fun env => !marked env
    rejected := b.rejected ++
      (b.kept.filter marked).map fun env => ⟨env, code.asStr, detail env⟩
    superseded := b.superseded }

/-- A rule by which the first candidate of a slot supersedes the later ones. -/
def dropLosers {κ : Type} [DecidableEq κ] (b : Batch) (slot : FullEnvelope → Option κ)
    (code : Code) (detail : FullEnvelope → String) : Batch :=
  { kept := (firstWins slot [] b.kept).1
    rejected := b.rejected ++
      (firstWins slot [] b.kept).2.map fun lost => ⟨lost.1, code.asStr, detail lost.1⟩
    superseded := (firstWins slot [] b.kept).2.foldl
      (fun m lost => m.insert lost.1.intentId.text lost.2.intentId.text) b.superseded }

def dropStale (b : Batch) (now : ℤ) : Batch :=
  b.dropIf (fun env => env.expiresAt.value ≤ now) .intentStale
    fun _ => "expired before arbitration"

def dropDuplicates (b : Batch) : Batch :=
  b.dropLosers (fun env => some env.idempotencyKey) .intentSuperseded
    fun _ => "duplicate idempotency key"

def policySlot (env : FullEnvelope) : Option (IntentType × String) :=
  if env.intentType = .setFee ∨ env.intentType = .setHtlcMax then
    some (env.intentType, env.target)
  else none

def dropContradictions (b : Batch) : Batch :=
  b.dropLosers policySlot .intentSuperseded
    fun env => s!"conflicting {IntentType.wire env.intentType} on {env.target}"

def rebalanceAgainst (t : IntentType) (l : List FullEnvelope) (env : FullEnvelope) : Bool :=
  env.intentType = .rebalance ∧
    env.target ∈ (l.filter fun e => e.intentType = t).map fun e => e.target

def dropClosing (b : Batch) : Batch :=
  b.dropIf (rebalanceAgainst .closeChannel b.kept) .conflictCloseRebalance
    fun env => s!"target {env.target} has a close intent"

def openSlot (env : FullEnvelope) : Option String :=
  if env.intentType = .openChannel then some env.target else none

def dropDuplicateOpens (b : Batch) : Batch :=
  b.dropLosers openSlot .conflictDuplicateOpen
    fun env => s!"target {env.target} already has an open intent"

def dropSwapping (b : Batch) : Batch :=
  b.dropIf (rebalanceAgainst .swapOut b.kept) .conflictRebalanceSwap
    fun env => s!"target {env.target} has a structural swap intent"

def resolve (b : Batch) (extendedRules : Bool) : Batch :=
  if extendedRules then
    b.dropDuplicates.dropContradictions.dropClosing.dropDuplicateOpens.dropSwapping
  else b.dropDuplicates.dropContradictions.dropClosing

end Batch

def candidates (intents : List FullEnvelope) : Batch := ⟨sortByKey sortKey intents, [], ∅⟩

def arbitrate (intents : List FullEnvelope) (now : ℤ) (extendedRules : Bool) : ArbitrationResult :=
  let b := ((candidates intents).dropStale now).resolve extendedRules
  ⟨b.kept, b.rejected, b.superseded⟩

structure Drops (b c : Batch) : Prop where
  sublist : c.kept.Sublist b.kept
  perm : (c.kept ++ c.rejected.map Rejection.env).Perm (b.kept ++ b.rejected.map Rejection.env)

namespace Drops

variable {b c d : Batch}

theorem trans (h : Drops b c) (h' : Drops c d) : Drops b d :=
  ⟨h'.sublist.trans h.sublist, h'.perm.trans h.perm⟩

theorem mem (h : Drops b c) {env : FullEnvelope} (henv : env ∈ c.kept) : env ∈ b.kept :=
  h.sublist.subset henv

end Drops

namespace Batch

variable (b : Batch)

theorem drops_of_lost {b c : Batch} {lost : List Rejection} (hs : c.kept.Sublist b.kept)
    (hrej : c.rejected = b.rejected ++ lost)
    (hp : (c.kept ++ lost.map Rejection.env).Perm b.kept) : Drops b c := by
  refine ⟨hs, ?_⟩
  rw [hrej, List.map_append]
  have hswap : (b.rejected.map Rejection.env ++ lost.map Rejection.env).Perm
      (lost.map Rejection.env ++ b.rejected.map Rejection.env) := List.perm_append_comm
  refine (hswap.append_left c.kept).trans ?_
  rw [← List.append_assoc]
  exact hp.append_right _

theorem dropIf_drops (marked : FullEnvelope → Bool) (code : Code)
    (detail : FullEnvelope → String) : Drops b (b.dropIf marked code detail) := by
  refine drops_of_lost List.filter_sublist rfl ?_
  have hmap : ((b.kept.filter marked).map fun env =>
      (⟨env, code.asStr, detail env⟩ : Rejection)).map Rejection.env = b.kept.filter marked := by
    rw [List.map_map]
    exact List.map_id _
  rw [hmap]
  exact (List.perm_append_comm).trans (List.filter_append_perm marked b.kept)

theorem dropLosers_drops {κ : Type} [DecidableEq κ] (slot : FullEnvelope → Option κ)
    (code : Code) (detail : FullEnvelope → String) : Drops b (b.dropLosers slot code detail) := by
  refine drops_of_lost firstWins_kept_sublist rfl ?_
  rw [List.map_map]
  exact firstWins_perm

theorem resolve_drops (extended : Bool) : Drops b (b.resolve extended) := by
  have hlegacy : Drops b b.dropDuplicates.dropContradictions.dropClosing :=
    (b.dropLosers_drops _ _ _).trans
      ((b.dropDuplicates.dropLosers_drops _ _ _).trans (dropIf_drops _ _ _ _))
  cases extended with
  | false => exact hlegacy
  | true =>
    exact hlegacy.trans ((dropLosers_drops _ _ _ _).trans (dropIf_drops _ _ _ _))

end Batch

section Conflicts

structure ConflictFree (now : ℤ) (extended : Bool) (l : List FullEnvelope) : Prop where
  unexpired : ∀ e ∈ l, now < e.expiresAt.value
  keys : l.Pairwise fun a b => a.idempotencyKey ≠ b.idempotencyKey
  policies : ∀ t, t = .setFee ∨ t = .setHtlcMax → ∀ target,
    (l.filter fun e => e.intentType = t ∧ e.target = target).length ≤ 1
  closes : ∀ r ∈ l, r.intentType = .rebalance →
    ∀ c ∈ l, c.intentType = .closeChannel → c.target ≠ r.target
  opens : extended = true → ∀ target,
    (l.filter fun e => e.intentType = .openChannel ∧ e.target = target).length ≤ 1
  swaps : extended = true → ∀ r ∈ l, r.intentType = .rebalance →
    ∀ s ∈ l, s.intentType = .swapOut → s.target ≠ r.target

def Exclusive (extended : Bool) (t : IntentType) : Prop :=
  t = .setFee ∨ t = .setHtlcMax ∨ extended = true ∧ t = .openChannel

def Outranks (extended : Bool) (t : IntentType) : Prop :=
  t = .closeChannel ∨ extended = true ∧ t = .swapOut

theorem Outranks.ne_rebalance {extended : Bool} {t : IntentType} (h : Outranks extended t) :
    t ≠ .rebalance := by
  rintro rfl
  simp [Outranks] at h

def Blocks (extended : Bool) (a e : FullEnvelope) : Prop :=
  a.target = e.target ∧
    (a.intentType = e.intentType ∧ Exclusive extended e.intentType ∨
      Outranks extended a.intentType ∧ e.intentType = .rebalance)

variable {extended : Bool} {a b e : FullEnvelope} {l m n : List FullEnvelope}

theorem Blocks.of_same (h : Blocks extended a b) (ht : b.intentType = e.intentType)
    (htarget : b.target = e.target) : Blocks extended a e := by
  unfold Blocks at *
  rw [← ht, ← htarget]
  exact h

theorem Blocks.trans (h : Blocks extended a b) (h' : Blocks extended b e) :
    Blocks extended a e := by
  obtain ⟨htarget, hab⟩ := h
  obtain ⟨htarget', hbe⟩ := h'
  refine ⟨htarget.trans htarget', ?_⟩
  cases hab with
  | inl hab =>
    cases hbe with
    | inl hbe => exact .inl ⟨hab.1.trans hbe.1, hbe.2⟩
    | inr hbe => exact .inr ⟨hab.1 ▸ hbe.1, hbe.2⟩
  | inr hab =>
    cases hbe with
    | inl hbe =>
      rw [← hbe.1, hab.2] at hbe
      exact absurd hbe.2 (by simp [Exclusive])
    | inr hbe => exact absurd hab.2 hbe.1.ne_rebalance

/-- Every candidate of the first list is in the second or blocked by one that is. -/
def Covered (extended : Bool) (l m : List FullEnvelope) : Prop :=
  ∀ e ∈ l, e ∈ m ∨ ∃ a ∈ m, Blocks extended a e

theorem Covered.trans (h : Covered extended l m) (h' : Covered extended m n) :
    Covered extended l n := by
  intro e he
  cases h e he with
  | inl hm => exact h' e hm
  | inr hb =>
    obtain ⟨a, ha, hae⟩ := hb
    cases h' a ha with
    | inl hn => exact .inr ⟨a, hn, hae⟩
    | inr hb' =>
      obtain ⟨a', ha', haa⟩ := hb'
      exact .inr ⟨a', ha', haa.trans hae⟩

theorem ConflictFree.perm {now : ℤ} (h : ConflictFree now extended l) (hp : l.Perm m) :
    ConflictFree now extended m where
  unexpired e he := h.unexpired e (hp.mem_iff.mpr he)
  keys := (hp.pairwise_iff Ne.symm).mp h.keys
  policies t ht target := (hp.filter _).length_eq ▸ h.policies t ht target
  closes r hr htype c hc := h.closes r (hp.mem_iff.mpr hr) htype c (hp.mem_iff.mpr hc)
  opens hext target := (hp.filter _).length_eq ▸ h.opens hext target
  swaps hext r hr htype s hs := h.swaps hext r (hp.mem_iff.mpr hr) htype s (hp.mem_iff.mpr hs)

theorem one_lt_length_filter {p : FullEnvelope → Bool} (ha : a ∈ l) (hpa : p a = true)
    (hpe : p e = true) : 1 < ((e :: l).filter p).length := by
  have hmem : a ∈ l.filter p := List.mem_filter.mpr ⟨ha, hpa⟩
  have hpos := List.length_pos_of_mem hmem
  rw [List.filter_cons_of_pos hpe, List.length_cons]
  omega

theorem not_conflictFree_of_blocks {now : ℤ} (ha : a ∈ l) (h : Blocks extended a e) :
    ¬ ConflictFree now extended (e :: l) := by
  intro hfree
  obtain ⟨htarget, hblock⟩ := h
  cases hblock with
  | inl hsame =>
    have htwo : 1 < ((e :: l).filter fun x =>
        x.intentType = e.intentType ∧ x.target = e.target).length :=
      one_lt_length_filter ha (by simpa using ⟨hsame.1, htarget⟩) (by simp)
    cases hsame.2 with
    | inl hfee =>
      have hone := hfree.policies e.intentType (.inl hfee) e.target
      omega
    | inr hrest =>
      cases hrest with
      | inl hmax =>
        have hone := hfree.policies e.intentType (.inr hmax) e.target
        omega
      | inr hopen =>
        have hone := hfree.opens hopen.1 e.target
        rw [hopen.2] at htwo
        omega
  | inr hrank =>
    have hmem := List.mem_cons_of_mem e ha
    cases hrank.1 with
    | inl hclose => exact hfree.closes e List.mem_cons_self hrank.2 a hmem hclose htarget
    | inr hswap => exact hfree.swaps hswap.1 e List.mem_cons_self hrank.2 a hmem hswap.2 htarget

theorem not_conflictFree_of_key {now : ℤ} (ha : a ∈ l) (h : a.idempotencyKey = e.idempotencyKey) :
    ¬ ConflictFree now extended (e :: l) := by
  intro hfree
  exact (List.pairwise_cons.mp hfree.keys).1 a ha h.symm

end Conflicts

namespace Batch

variable (b : Batch) {extended : Bool}

/-- A rule by slots covers what it drops, where one slot means one type and one target. -/
theorem dropLosers_covered {κ : Type} [DecidableEq κ] {slot : FullEnvelope → Option κ} {code : Code}
    {detail : FullEnvelope → String}
    (hslot : ∀ a e k, slot a = some k → slot e = some k → Blocks extended a e) :
    Covered extended b.kept (b.dropLosers slot code detail).kept := by
  intro e he
  refine (firstWins_winner he).imp_right ?_
  rintro ⟨w, hw, k, hek, hwk⟩
  exact ⟨w, hw, hslot w e k hwk hek⟩

theorem blocks_of_policySlot {a e : FullEnvelope} {k : IntentType × String}
    (ha : policySlot a = some k) (he : policySlot e = some k) : Blocks extended a e := by
  unfold policySlot at ha he
  split at ha
  · split at he
    · rename_i hpa hpe
      have hk := (Option.some.inj ha).trans (Option.some.inj he).symm
      rw [Prod.mk.injEq] at hk
      exact ⟨hk.2, .inl ⟨hk.1, hpe.imp_right .inl⟩⟩
    · simp at he
  · simp at ha

theorem blocks_of_openSlot {a e : FullEnvelope} {k : String} (ha : openSlot a = some k)
    (he : openSlot e = some k) : Blocks true a e := by
  unfold openSlot at ha he
  split at ha
  · split at he
    · rename_i hpa hpe
      exact ⟨(Option.some.inj ha).trans (Option.some.inj he).symm,
        .inl ⟨hpa.trans hpe.symm, .inr (.inr ⟨rfl, hpe⟩)⟩⟩
    · simp at he
  · simp at ha

theorem rebalanceAgainst_iff {t : IntentType} {l : List FullEnvelope} {env : FullEnvelope} :
    rebalanceAgainst t l env = true ↔
      env.intentType = .rebalance ∧ ∃ a ∈ l, a.intentType = t ∧ a.target = env.target := by
  simp [rebalanceAgainst, and_assoc]

theorem dropRebalances_covered {t : IntentType} {code : Code} {detail : FullEnvelope → String}
    (ht : Outranks extended t) :
    Covered extended b.kept (b.dropIf (rebalanceAgainst t b.kept) code detail).kept := by
  intro e he
  by_cases hmark : rebalanceAgainst t b.kept e = true
  · obtain ⟨hreb, a, ha, hat, htarget⟩ := rebalanceAgainst_iff.mp hmark
    have hnot : rebalanceAgainst t b.kept a = false := by
      simp [rebalanceAgainst, hat, ht.ne_rebalance]
    exact .inr ⟨a, List.mem_filter.mpr ⟨ha, by simp [hnot]⟩, htarget, .inr ⟨hat ▸ ht, hreb⟩⟩
  · exact .inl (List.mem_filter.mpr ⟨he, by simpa using hmark⟩)

theorem resolve_covered (extended : Bool) :
    Covered extended b.dropDuplicates.kept (b.resolve extended).kept := by
  have hlegacy : ∀ ext, Covered ext b.dropDuplicates.kept
      b.dropDuplicates.dropContradictions.dropClosing.kept := fun ext =>
    (dropLosers_covered _ fun _ _ _ => blocks_of_policySlot).trans
      (dropRebalances_covered _ (.inl rfl))
  cases extended with
  | false => exact hlegacy false
  | true =>
    exact (hlegacy true).trans ((dropLosers_covered _ fun _ _ _ => blocks_of_openSlot).trans
      (dropRebalances_covered _ (.inr ⟨rfl, rfl⟩)))

theorem policySlot_eq_some {env : FullEnvelope} {t : IntentType} {target : String} :
    policySlot env = some (t, target) ↔
      (t = .setFee ∨ t = .setHtlcMax) ∧ env.intentType = t ∧ env.target = target := by
  unfold policySlot
  split
  · rename_i h
    rw [Option.some.injEq, Prod.mk.injEq]
    exact ⟨fun hk => ⟨hk.1 ▸ h, hk⟩, fun hk => hk.2⟩
  · rename_i h
    simp only [reduceCtorEq, false_iff, not_and]
    intro ht htype
    exact absurd (htype ▸ ht) h

theorem openSlot_eq_some {env : FullEnvelope} {target : String} :
    openSlot env = some target ↔ env.intentType = .openChannel ∧ env.target = target := by
  unfold openSlot
  split <;> simp_all

theorem dropDuplicates_keys :
    b.dropDuplicates.kept.Pairwise fun a e => a.idempotencyKey ≠ e.idempotencyKey := by
  have hdistinct : b.dropDuplicates.kept.Pairwise fun a e => ∀ k,
      some a.idempotencyKey = some k → some e.idempotencyKey ≠ some k := firstWins_kept_distinct
  refine hdistinct.imp ?_
  intro a e h hkey
  exact h a.idempotencyKey rfl (congrArg some hkey.symm)

theorem dropDuplicates_winner {e : FullEnvelope} (he : e ∈ b.kept) :
    ∃ w ∈ b.dropDuplicates.kept, w.idempotencyKey = e.idempotencyKey := by
  have hwin : e ∈ b.dropDuplicates.kept ∨ ∃ w ∈ b.dropDuplicates.kept,
      ∃ k, some e.idempotencyKey = some k ∧ some w.idempotencyKey = some k := firstWins_winner he
  cases hwin with
  | inl hkept => exact ⟨e, hkept, rfl⟩
  | inr hlost =>
    obtain ⟨w, hw, k, hek, hwk⟩ := hlost
    exact ⟨w, hw, Option.some.inj (hwk.trans hek.symm)⟩

theorem dropContradictions_policies {t : IntentType} (ht : t = .setFee ∨ t = .setHtlcMax)
    (target : String) :
    (b.dropContradictions.kept.filter fun e => e.intentType = t ∧
      e.target = target).length ≤ 1 := by
  have hone :
      (b.dropContradictions.kept.filter fun e => policySlot e = some (t, target)).length ≤ 1 :=
    length_filter_slot_le_one firstWins_kept_distinct (t, target)
  simpa only [policySlot_eq_some, ht, true_and] using hone

theorem dropDuplicateOpens_opens (target : String) :
    (b.dropDuplicateOpens.kept.filter fun e =>
      e.intentType = .openChannel ∧ e.target = target).length ≤ 1 := by
  have hone : (b.dropDuplicateOpens.kept.filter fun e => openSlot e = some target).length ≤ 1 :=
    length_filter_slot_le_one firstWins_kept_distinct target
  simpa only [openSlot_eq_some] using hone

theorem dropRebalances_targets {t : IntentType} {code : Code} {detail : FullEnvelope → String}
    {r a : FullEnvelope} (hr : r ∈ (b.dropIf (rebalanceAgainst t b.kept) code detail).kept)
    (hreb : r.intentType = .rebalance) (ha : a ∈ b.kept) (hat : a.intentType = t) :
    a.target ≠ r.target := by
  intro htarget
  have hunmarked := (List.mem_filter.mp hr).2
  rw [rebalanceAgainst_iff.mpr ⟨hreb, a, ha, hat, htarget⟩] at hunmarked
  simp at hunmarked

theorem mem_dropStale {now : ℤ} {e : FullEnvelope} :
    e ∈ (b.dropStale now).kept ↔ e ∈ b.kept ∧ now < e.expiresAt.value := by
  simp [dropStale, dropIf]

/-- What the legacy rules leave is free of the legacy conflicts, and so is any part of it. -/
theorem conflictFree_of_sublist {now : ℤ} {l : List FullEnvelope}
    (hl : l.Sublist b.dropDuplicates.dropContradictions.dropClosing.kept)
    (hfresh : ∀ e ∈ b.kept, now < e.expiresAt.value)
    (hopens : extended = true → ∀ target,
      (l.filter fun e => e.intentType = .openChannel ∧ e.target = target).length ≤ 1)
    (hswaps : extended = true → ∀ r ∈ l, r.intentType = .rebalance →
      ∀ s ∈ l, s.intentType = .swapOut → s.target ≠ r.target) : ConflictFree now extended l := by
  have hcontra : l.Sublist b.dropDuplicates.dropContradictions.kept :=
    hl.trans (dropIf_drops _ _ _ _).sublist
  have hdup : l.Sublist b.dropDuplicates.kept := hcontra.trans (dropLosers_drops _ _ _ _).sublist
  have hall : l.Sublist b.kept := hdup.trans (b.dropLosers_drops _ _ _).sublist
  exact {
    unexpired := fun e he => hfresh e (hall.subset he)
    keys := b.dropDuplicates_keys.sublist hdup
    policies := fun t ht target =>
      (hcontra.filter _).length_le.trans (dropContradictions_policies _ ht target)
    closes := fun r hr hreb c hc hclose =>
      dropRebalances_targets _ (hl.subset hr) hreb (hcontra.subset hc) hclose
    opens := hopens
    swaps := hswaps }

theorem resolve_conflictFree {now : ℤ} (hfresh : ∀ e ∈ b.kept, now < e.expiresAt.value)
    (extended : Bool) : ConflictFree now extended (b.resolve extended).kept := by
  cases extended with
  | false =>
    refine b.conflictFree_of_sublist (List.Sublist.refl _) hfresh ?_ ?_
    · intro hext
      exact absurd hext (by decide)
    · intro hext
      exact absurd hext (by decide)
  | true =>
    have hopen := (dropLosers_drops b.dropDuplicates.dropContradictions.dropClosing openSlot
      .conflictDuplicateOpen fun env => s!"target {env.target} already has an open intent").sublist
    have hswap := (dropIf_drops
      b.dropDuplicates.dropContradictions.dropClosing.dropDuplicateOpens
      (rebalanceAgainst .swapOut
        b.dropDuplicates.dropContradictions.dropClosing.dropDuplicateOpens.kept)
      .conflictRebalanceSwap fun env =>
        s!"target {env.target} has a structural swap intent").sublist
    refine b.conflictFree_of_sublist (hswap.trans hopen) hfresh ?_ ?_
    · intro _ target
      exact (hswap.filter _).length_le.trans (dropDuplicateOpens_opens _ target)
    · intro _ r hr hreb s hs hout
      exact dropRebalances_targets _ hr hreb (hswap.subset hs) hout

theorem dropIf_of_unmarked {marked : FullEnvelope → Bool} {code : Code}
    {detail : FullEnvelope → String} (h : ∀ e ∈ b.kept, marked e = false) :
    b.dropIf marked code detail = b := by
  have hkept : b.kept.filter (fun env => !marked env) = b.kept :=
    List.filter_eq_self.mpr fun e he => by simp [h e he]
  have hlost : b.kept.filter marked = [] :=
    List.filter_eq_nil_iff.mpr fun e he => by simp [h e he]
  simp [dropIf, hkept, hlost]

theorem dropLosers_of_distinct {κ : Type} [DecidableEq κ] {slot : FullEnvelope → Option κ}
    {code : Code} {detail : FullEnvelope → String}
    (h : b.kept.Pairwise fun a e => ∀ k, slot a = some k → slot e ≠ some k) :
    b.dropLosers slot code detail = b := by
  have hself : firstWins slot [] b.kept = (b.kept, []) :=
    firstWins_of_distinct (fun _ _ _ _ => rfl) h
  simp [dropLosers, hself]

theorem resolve_of_conflictFree {now : ℤ} (h : ConflictFree now extended b.kept) :
    b.resolve extended = b := by
  have hdup : b.dropDuplicates = b := by
    refine b.dropLosers_of_distinct (h.keys.imp ?_)
    intro a e hne k ha he
    exact hne (Option.some.inj (ha.trans he.symm))
  have hcontra : b.dropContradictions = b := by
    refine b.dropLosers_of_distinct (pairwise_of_length_filter_slot_le_one ?_)
    rintro ⟨t, target⟩
    simp only [policySlot_eq_some]
    by_cases ht : t = .setFee ∨ t = .setHtlcMax
    · simpa only [ht, true_and] using h.policies t ht target
    · simp [ht]
  have hclose : b.dropClosing = b := by
    refine b.dropIf_of_unmarked ?_
    intro r hr
    rw [Bool.eq_false_iff, ne_eq, rebalanceAgainst_iff]
    rintro ⟨hreb, c, hc, hclose, htarget⟩
    exact h.closes r hr hreb c hc hclose htarget
  cases extended with
  | false => rw [resolve, if_neg (by decide), hdup, hcontra, hclose]
  | true =>
    have hopen : b.dropDuplicateOpens = b := by
      refine b.dropLosers_of_distinct (pairwise_of_length_filter_slot_le_one ?_)
      intro target
      simpa only [openSlot_eq_some] using h.opens rfl target
    have hswap : b.dropSwapping = b := by
      refine b.dropIf_of_unmarked ?_
      intro r hr
      rw [Bool.eq_false_iff, ne_eq, rebalanceAgainst_iff]
      rintro ⟨hreb, s, hs, hout, htarget⟩
      exact h.swaps rfl r hr hreb s hs hout htarget
    rw [resolve, if_pos rfl, hdup, hcontra, hclose, hopen, hswap]

end Batch

variable {l : List FullEnvelope} {now : ℤ} {extended : Bool}

theorem arbitrate_drops (l : List FullEnvelope) (now : ℤ) (extended : Bool) :
    Drops (candidates l) (((candidates l).dropStale now).resolve extended) :=
  (Batch.dropIf_drops _ _ _ _).trans (Batch.resolve_drops _ _)

theorem arbitrate_perm (l : List FullEnvelope) (now : ℤ) (extended : Bool) :
    ((arbitrate l now extended).ordered ++
      (arbitrate l now extended).rejected.map Rejection.env).Perm l := by
  refine (arbitrate_drops l now extended).perm.trans ?_
  simpa [candidates] using perm_sortByKey l

theorem arbitrate_sorted (l : List FullEnvelope) (now : ℤ) (extended : Bool) :
    (arbitrate l now extended).ordered.Pairwise fun a b => sortKey a ≤ sortKey b :=
  (pairwise_sortByKey l).sublist (arbitrate_drops l now extended).sublist

theorem arbitrate_conflictFree (l : List FullEnvelope) (now : ℤ) (extended : Bool) :
    ConflictFree now extended (arbitrate l now extended).ordered :=
  Batch.resolve_conflictFree _ (fun _ he => ((Batch.mem_dropStale _).mp he).2) extended

theorem arbitrate_of_conflictFree (hsort : l.Pairwise fun a b => sortKey a ≤ sortKey b)
    (h : ConflictFree now extended l) : arbitrate l now extended = ⟨l, [], ∅⟩ := by
  have hcand : candidates l = ⟨l, [], ∅⟩ := by rw [candidates, sortByKey_of_pairwise hsort]
  have hstale : (candidates l).dropStale now = ⟨l, [], ∅⟩ := by
    rw [hcand]
    refine Batch.dropIf_of_unmarked _ ?_
    intro e he
    simpa using h.unexpired e he
  have hresolve := Batch.resolve_of_conflictFree (⟨l, [], ∅⟩ : Batch) h
  simp only [arbitrate, hstale, hresolve]

def KeysIdentify (l : List FullEnvelope) : Prop :=
  ∀ a ∈ l, ∀ b ∈ l, a.idempotencyKey = b.idempotencyKey →
    a.intentType = b.intentType ∧ a.target = b.target

theorem arbitrate_maximal (hkeys : KeysIdentify l) {e : FullEnvelope} (he : e ∈ l)
    (hfresh : now < e.expiresAt.value) :
    ¬ ConflictFree now extended (e :: (arbitrate l now extended).ordered) := by
  let b := (candidates l).dropStale now
  have hsort : e ∈ (candidates l).kept := (perm_sortByKey l).mem_iff.mpr he
  have hmem : e ∈ b.kept := (Batch.mem_dropStale _).mpr ⟨hsort, hfresh⟩
  obtain ⟨w, hw, hkey⟩ := b.dropDuplicates_winner hmem
  have hwl : w ∈ l := by
    have hwb : w ∈ b.kept := (b.dropLosers_drops _ _ _).mem hw
    exact (perm_sortByKey l).mem_iff.mp ((Batch.mem_dropStale _).mp hwb).1
  cases b.resolve_covered extended w hw with
  | inl hkept => exact not_conflictFree_of_key hkept hkey
  | inr hblocked =>
    obtain ⟨a, ha, hblocks⟩ := hblocked
    have hsame := hkeys w hwl e he hkey
    exact not_conflictFree_of_blocks ha (hblocks.of_same hsame.1 hsame.2)

section Derived

variable [Sha256] [DebugText]

/-- Envelopes of make_intent agree where their keys do, unless two texts share a digest. -/
theorem keysIdentify_of_made (hmade : ∀ e ∈ l, ∃ fields, makeIntent fields = .ok e)
    (hsha : ∀ a ∈ l, ∀ b ∈ l, Sha256.hexDigest a.keyText = Sha256.hexDigest b.keyText →
      a.keyText = b.keyText) : KeysIdentify l := by
  intro a ha b hb hkey
  obtain ⟨_, hfa⟩ := hmade a ha
  obtain ⟨_, hfb⟩ := hmade b hb
  have hdigest : Sha256.hexDigest a.keyText = Sha256.hexDigest b.keyText :=
    (makeIntent_key hfa).1.symm.trans (hkey.trans (makeIntent_key hfb).1)
  have hfields := keyText_injective (hsha a ha b hb hdigest)
  exact ⟨hfields.1, hfields.2.1⟩

/-- Batch arbitration loses nothing, leaves no conflict, drops nothing needlessly, and leaves
its own result as it is. -/
theorem arbitrate_sound_maximal (l : List FullEnvelope) (now : ℤ) (extended : Bool)
    (hmade : ∀ e ∈ l, ∃ fields, makeIntent fields = .ok e)
    (hsha : ∀ a ∈ l, ∀ b ∈ l, Sha256.hexDigest a.keyText = Sha256.hexDigest b.keyText →
      a.keyText = b.keyText) :
    ((arbitrate l now extended).ordered ++
        (arbitrate l now extended).rejected.map Rejection.env).Perm l ∧
      (arbitrate l now extended).ordered.Pairwise (fun a b => sortKey a ≤ sortKey b) ∧
      ConflictFree now extended (arbitrate l now extended).ordered ∧
      (∀ r ∈ (arbitrate l now extended).rejected, now < r.env.expiresAt.value →
        ∀ m : List FullEnvelope, m.Perm (r.env :: (arbitrate l now extended).ordered) →
          ¬ ConflictFree now extended m) ∧
      arbitrate (arbitrate l now extended).ordered now extended =
        ⟨(arbitrate l now extended).ordered, [], ∅⟩ := by
  refine ⟨arbitrate_perm l now extended, arbitrate_sorted l now extended,
    arbitrate_conflictFree l now extended, ?_,
    arbitrate_of_conflictFree (arbitrate_sorted l now extended)
      (arbitrate_conflictFree l now extended)⟩
  intro r hr hfresh m hm hfree
  have hmem : r.env ∈ l := (arbitrate_perm l now extended).mem_iff.mp
    (List.mem_append_right _ (List.mem_map_of_mem hr))
  exact arbitrate_maximal (keysIdentify_of_made hmade hsha) hmem hfresh (hfree.perm hm)

end Derived

/-- The digests of the two texts below; no other text is hashed. -/
@[reducible] def knownDigests : Sha256 := ⟨fun text =>
  if text =
    "\x7b\"amount_msat\":400000000,\"budget_bucket\":\"rebalance\",\"intent_type\":\"REBALANCE\",\"snapshot_id\":\"snap-1\",\"target\":\"111x222x0\"\x7d" then
    "1119af2f103eb34445d30decf78b97f16d11267a8fe66e6aa83b340abdbe33f4"
  else "9c2fdcd788a9c1f0ccf5c7e1cad94235d84c80b7898440153e8bb7d4a905ce5c"⟩

@[reducible] def plainDebug : DebugText := ⟨id⟩

theorem zero_le_u63Max : (0 : ℤ) ≤ u63Max := by decide

theorem amount_nonneg : (0 : ℤ) ≤ 400000000 := by decide

theorem amount_bounded : (400000000 : ℤ) ≤ u63Max := by decide

theorem million_nonneg : (0 : ℤ) ≤ 1000000 := by decide

def proposalFields (t : IntentType) (amount : Option Msat) (bucket : String) : IntentFields :=
  { intentType := t
    snapshotId := "snap-1"
    createdAt := ⟨0, le_refl 0, zero_le_u63Max⟩
    expiresAt := ⟨100, hundred_nonneg, hundred_le_u63Max⟩
    target := "111x222x0"
    amountMsat := amount
    expectedBenefitMsat := 0
    maxCostMsat := ⟨0, le_refl 0, zero_le_u63Max⟩
    capitalCommittedMsat := ⟨0, le_refl 0, zero_le_u63Max⟩
    confidenceMicro := ⟨0, le_refl 0, million_nonneg⟩
    reasonCodes := []
    explanation := ⟨"conformance", []⟩
    preconditions := []
    priority := 50
    budgetBucket := bucket
    originPolicy := "conformance"
    reversible := false }

theorem rebalanceId_valid : validIntentId "int-1119af2f103eb344" = true := by decide

theorem closeId_valid : validIntentId "int-9c2fdcd788a9c1f0" = true := by decide

def rebalanceProposal : FullEnvelope :=
  (proposalFields .rebalance
    (some ⟨400000000, amount_nonneg, amount_bounded⟩) "rebalance").toEnvelope
    ⟨"int-1119af2f103eb344", rebalanceId_valid⟩
    "1119af2f103eb34445d30decf78b97f16d11267a8fe66e6aa83b340abdbe33f4"

def closeProposal : FullEnvelope :=
  (proposalFields .closeChannel none "channel_open").toEnvelope
    ⟨"int-9c2fdcd788a9c1f0", closeId_valid⟩
    "9c2fdcd788a9c1f0ccf5c7e1cad94235d84c80b7898440153e8bb7d4a905ce5c"

theorem rebalanceProposal_keyText : rebalanceProposal.keyText =
    "\x7b\"amount_msat\":400000000,\"budget_bucket\":\"rebalance\",\"intent_type\":\"REBALANCE\",\"snapshot_id\":\"snap-1\",\"target\":\"111x222x0\"\x7d" := by
  decide +kernel

theorem closeProposal_keyText : closeProposal.keyText ≠ rebalanceProposal.keyText := by
  intro h
  have htype := (keyText_injective h).1
  exact absurd htype (by decide)

theorem rebalanceProposal_digest : knownDigests.hexDigest rebalanceProposal.keyText =
    "1119af2f103eb34445d30decf78b97f16d11267a8fe66e6aa83b340abdbe33f4" :=
  if_pos rebalanceProposal_keyText

theorem closeProposal_digest : knownDigests.hexDigest closeProposal.keyText =
    "9c2fdcd788a9c1f0ccf5c7e1cad94235d84c80b7898440153e8bb7d4a905ce5c" :=
  if_neg (rebalanceProposal_keyText ▸ closeProposal_keyText)

theorem rebalanceProposal_made : ∃ fields,
    @makeIntent knownDigests plainDebug fields = .ok rebalanceProposal :=
  ⟨_, @makeIntent_ok knownDigests plainDebug _ _ _ rebalanceId_valid rebalanceProposal_digest
    (by decide) (by decide)⟩

theorem closeProposal_made : ∃ fields,
    @makeIntent knownDigests plainDebug fields = .ok closeProposal :=
  ⟨_, @makeIntent_ok knownDigests plainDebug _ _ _ closeId_valid closeProposal_digest
    (by decide) (by decide)⟩

theorem knownDigests_separate : knownDigests.hexDigest rebalanceProposal.keyText ≠
    knownDigests.hexDigest closeProposal.keyText := by
  rw [rebalanceProposal_digest, closeProposal_digest]
  decide

/-- A rebalance into a channel that is proposed for closing. -/
theorem close_wins :
    (arbitrate [rebalanceProposal, closeProposal] 0 true).rejected.length = 1 ∧
    ((arbitrate [rebalanceProposal, closeProposal] 0 true).ordered ++
        (arbitrate [rebalanceProposal, closeProposal] 0 true).rejected.map Rejection.env).Perm
          [rebalanceProposal, closeProposal] := by
  refine ⟨by decide, (@arbitrate_sound_maximal knownDigests plainDebug _ 0 true ?_ ?_).1⟩
  · intro e he
    simp only [List.mem_cons, List.not_mem_nil, or_false] at he
    cases he with
    | inl h => exact h ▸ rebalanceProposal_made
    | inr h => exact h ▸ closeProposal_made
  · intro a ha b hb
    simp only [List.mem_cons, List.not_mem_nil, or_false] at ha hb
    intro hdigest
    rcases ha with rfl | rfl <;> rcases hb with rfl | rfl
    · rfl
    · exact absurd hdigest knownDigests_separate
    · exact absurd hdigest.symm knownDigests_separate
    · rfl

end Arbiter
