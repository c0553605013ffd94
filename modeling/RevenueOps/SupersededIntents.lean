import RevenueOps.ArbiterOrder

/-! Whom the superseded map of a batch names. The ids are derived from the idempotency keys,
so that repeats of one intent share their id with the one that wins. -/
namespace Arbiter

open EconIntents IntentProposal StableSelection

def SparesSurvivors (r : ArbitrationResult) : Prop :=
  (∀ e ∈ r.ordered, e.intentId.text ∉ r.superseded) ∧
    ∀ id winner : String, r.superseded[id]? = some winner → winner ≠ id

def sharing (now : ℤ) (id : String) (l : List FullEnvelope) : ℕ :=
  l.countP fun e => !Stale now e && e.intentId.text = id

namespace Superseded

variable {id winner : String} {m : Superseded} {pairs : List (FullEnvelope × FullEnvelope)}

def record (m : Superseded) (pairs : List (FullEnvelope × FullEnvelope)) : Superseded :=
  pairs.foldl (fun m lost => m.insert lost.1.intentId.text lost.2.intentId.text) m

theorem record_cons (p : FullEnvelope × FullEnvelope) :
    record m (p :: pairs) = record (m.insert p.1.intentId.text p.2.intentId.text) pairs := rfl

theorem getElem?_record (h : (record m pairs)[id]? = some winner) :
    m[id]? = some winner ∨
      ∃ p ∈ pairs, p.1.intentId.text = id ∧ p.2.intentId.text = winner := by
  induction pairs generalizing m with
  | nil => exact .inl h
  | cons p pairs ih =>
    rw [record_cons] at h
    cases ih h with
    | inr hlater =>
      obtain ⟨q, hq, hid⟩ := hlater
      exact .inr ⟨q, List.mem_cons_of_mem p hq, hid⟩
    | inl hnow =>
      rw [Std.ExtTreeMap.getElem?_insert] at hnow
      split at hnow
      · rename_i hid
        exact .inr ⟨p, List.mem_cons_self, Std.LawfulEqCmp.eq_of_compare hid,
          Option.some.inj hnow⟩
      · exact .inl hnow

theorem mem_record_of_mem (h : id ∈ m) : id ∈ record m pairs := by
  induction pairs generalizing m with
  | nil => exact h
  | cons p pairs ih =>
    rw [record_cons]
    exact ih (Std.ExtTreeMap.mem_insert.mpr (.inr h))

theorem mem_record {p : FullEnvelope × FullEnvelope} (hp : p ∈ pairs) :
    p.1.intentId.text ∈ record m pairs := by
  induction pairs generalizing m with
  | nil => simp at hp
  | cons q pairs ih =>
    rw [record_cons]
    rw [List.mem_cons] at hp
    cases hp with
    | inl hp =>
      subst hp
      exact mem_record_of_mem (Std.ExtTreeMap.mem_insert_self)
    | inr hp => exact ih hp

end Superseded

theorem sharing_pos {now : ℤ} {id : String} {l : List FullEnvelope} {e : FullEnvelope}
    (he : e ∈ l) (hfresh : now < e.expiresAt.value) (hid : e.intentId.text = id) :
    1 ≤ sharing now id l := by
  refine List.countP_pos_iff.mpr ⟨e, he, ?_⟩
  simpa [Stale, hid] using hfresh

namespace Batch

/-- Every entry is of an unexpired rejected candidate, and one that maps an id to itself is of
a candidate that shares its id with another. -/
structure Accounted (now : ℤ) (b : Batch) : Prop where
  fresh : ∀ e ∈ b.kept, now < e.expiresAt.value
  named : ∀ id winner, b.superseded[id]? = some winner →
    1 ≤ sharing now id (b.rejected.map Rejection.env)
  itself : ∀ id, b.superseded[id]? = some id →
    2 ≤ sharing now id (b.kept ++ b.rejected.map Rejection.env)

variable {now : ℤ} {b : Batch}

theorem sharing_drops {b c : Batch} (h : Drops b c) (id : String) :
    sharing now id (c.kept ++ c.rejected.map Rejection.env) =
      sharing now id (b.kept ++ b.rejected.map Rejection.env) := h.perm.countP_eq _

theorem Accounted.dropIf (h : Accounted now b) (marked : FullEnvelope → Bool) (code : Code)
    (detail : FullEnvelope → String) : Accounted now (b.dropIf marked code detail) where
  fresh e he := h.fresh e ((b.dropIf_drops marked code detail).mem he)
  named id winner hid := by
    have hnamed := h.named id winner hid
    have hmore : sharing now id (b.rejected.map Rejection.env) ≤
        sharing now id ((b.dropIf marked code detail).rejected.map Rejection.env) := by
      simp only [Batch.dropIf, List.map_append, sharing, List.countP_append]
      omega
    omega
  itself id hid := by
    rw [sharing_drops (b.dropIf_drops marked code detail)]
    exact h.itself id hid

theorem Accounted.dropLosers {κ : Type} [DecidableEq κ] (h : Accounted now b)
    (slot : FullEnvelope → Option κ) (code : Code) (detail : FullEnvelope → String) :
    Accounted now (b.dropLosers slot code detail) := by
  have hdrops := b.dropLosers_drops slot code detail
  have hrejected : (b.dropLosers slot code detail).rejected.map Rejection.env =
      b.rejected.map Rejection.env ++ (firstWins slot [] b.kept).2.map Prod.fst := by
    simp only [Batch.dropLosers, List.map_append, List.map_map]
    rfl
  have hlost : ∀ p ∈ (firstWins slot [] b.kept).2, p.1 ∈ b.kept := by
    intro p hp
    exact firstWins_perm.mem_iff.mp (List.mem_append_right _ (List.mem_map_of_mem hp))
  have hone : ∀ p ∈ (firstWins slot [] b.kept).2,
      1 ≤ sharing now p.1.intentId.text ((firstWins slot [] b.kept).2.map Prod.fst) :=
    fun p hp => sharing_pos (List.mem_map_of_mem hp) (h.fresh _ (hlost p hp)) rfl
  refine ⟨fun e he => h.fresh e (hdrops.mem he), ?_, ?_⟩
  · intro id winner hid
    rw [hrejected, sharing, List.countP_append]
    cases Superseded.getElem?_record hid with
    | inl hold =>
      have hnamed := h.named id winner hold
      unfold sharing at hnamed
      omega
    | inr hnew =>
      obtain ⟨p, hp, rfl, _⟩ := hnew
      have hlast := hone p hp
      unfold sharing at hlast
      omega
  · intro id hid
    cases Superseded.getElem?_record hid with
    | inl hold =>
      rw [sharing_drops hdrops]
      exact h.itself id hold
    | inr hnew =>
      -- the winner is kept and the loser is not, so they are two
      obtain ⟨⟨loser, winner⟩, hp, hloser, hwinner⟩ := hnew
      obtain ⟨k, hk, hw⟩ := firstWins_lost hp
      have hkept : winner ∈ (firstWins slot [] b.kept).1 := by
        cases hw with
        | inl hseen => simp at hseen
        | inr hkept => exact hkept.2
      have hfirst : 1 ≤ sharing now id (b.dropLosers slot code detail).kept :=
        sharing_pos hkept (h.fresh _ (firstWins_kept_sublist.subset hkept)) hwinner
      have hlast := hone _ hp
      rw [hloser] at hlast
      rw [hrejected]
      simp only [sharing, List.countP_append] at *
      omega

theorem Accounted.resolve (h : Accounted now b) (extended : Bool) :
    Accounted now (b.resolve extended) := by
  have hlegacy : Accounted now b.dropDuplicates.dropContradictions.dropClosing :=
    ((h.dropLosers _ _ _).dropLosers _ _ _).dropIf _ _ _
  cases extended with
  | false => exact hlegacy
  | true => exact (hlegacy.dropLosers _ _ _).dropIf _ _ _

theorem accounted_dropStale (l : List FullEnvelope) (now : ℤ) :
    Accounted now ((candidates l).dropStale now) where
  fresh e he := ((candidates l).mem_dropStale.mp he).2
  named id winner hid := by
    have hnone : (∅ : Superseded)[id]? = some winner := hid
    simp at hnone
  itself id hid := by
    have hnone : (∅ : Superseded)[id]? = some id := hid
    simp at hnone

theorem resolve_superseded (b : Batch) (extended : Bool) {id : String}
    (h : id ∈ b.dropDuplicates.superseded) : id ∈ (b.resolve extended).superseded := by
  have hlegacy : id ∈ b.dropDuplicates.dropContradictions.dropClosing.superseded :=
    Superseded.mem_record_of_mem h
  cases extended with
  | false => exact hlegacy
  | true => exact Superseded.mem_record_of_mem hlegacy

end Batch

variable {l : List FullEnvelope} {now : ℤ} {extended : Bool}

theorem arbitrate_accounted (l : List FullEnvelope) (now : ℤ) (extended : Bool) :
    Batch.Accounted now (((candidates l).dropStale now).resolve extended) :=
  (Batch.accounted_dropStale l now).resolve extended

theorem sharing_arbitrate (l : List FullEnvelope) (now : ℤ) (extended : Bool) (id : String) :
    sharing now id ((arbitrate l now extended).ordered ++
      (arbitrate l now extended).rejected.map Rejection.env) = sharing now id l :=
  (arbitrate_perm l now extended).countP_eq _

/-- A survivor that the map names shares its id with another unexpired candidate. -/
theorem shared_of_named {e : FullEnvelope} (he : e ∈ (arbitrate l now extended).ordered)
    (hnamed : e.intentId.text ∈ (arbitrate l now extended).superseded) :
    2 ≤ sharing now e.intentId.text l := by
  have haccounted := arbitrate_accounted l now extended
  obtain ⟨winner, hwinner⟩ : ∃ winner,
      (arbitrate l now extended).superseded[e.intentId.text]? = some winner :=
    ⟨_, Std.ExtTreeMap.getElem?_eq_some_getElem hnamed⟩
  have hrejected := haccounted.named _ winner hwinner
  have hkept := sharing_pos he (haccounted.fresh e he) rfl
  rw [← sharing_arbitrate l now extended]
  simp only [sharing, List.countP_append] at *
  exact Nat.add_le_add hkept hrejected

theorem shared_of_itself {id : String}
    (h : (arbitrate l now extended).superseded[id]? = some id) : 2 ≤ sharing now id l := by
  rw [← sharing_arbitrate l now extended]
  exact (arbitrate_accounted l now extended).itself id h

/-- Of several unexpired candidates of one key all but one lose to that one. -/
theorem named_of_repeated {e : FullEnvelope}
    (hids : ∀ a ∈ l, a.idempotencyKey = e.idempotencyKey → a.intentId.text = e.intentId.text)
    (htwo : 2 ≤ l.countP fun a => !Stale now a && a.idempotencyKey = e.idempotencyKey) :
    e.intentId.text ∈ (arbitrate l now extended).superseded := by
  let b := (candidates l).dropStale now
  have hcount : b.kept.countP (fun a => a.idempotencyKey = e.idempotencyKey) =
      l.countP fun a => !Stale now a && a.idempotencyKey = e.idempotencyKey := by
    have hfiltered : b.kept.countP (fun a => a.idempotencyKey = e.idempotencyKey) =
        (sortByKey sortKey l).countP fun a =>
          a.idempotencyKey = e.idempotencyKey && !Stale now a := List.countP_filter
    rw [hfiltered, (perm_sortByKey l).countP_eq]
    simp only [Bool.and_comm]
  have hone :
      (b.dropDuplicates.kept.filter fun a => keySlot a = some e.idempotencyKey).length ≤ 1 :=
    length_filter_slot_le_one firstWins_kept_distinct e.idempotencyKey
  have hall : (b.dropDuplicates.kept ++ (firstWins keySlot [] b.kept).2.map Prod.fst).countP
      (fun a => a.idempotencyKey = e.idempotencyKey) =
        b.kept.countP fun a => a.idempotencyKey = e.idempotencyKey := firstWins_perm.countP_eq _
  have hkept : b.dropDuplicates.kept.countP (fun a => a.idempotencyKey = e.idempotencyKey) ≤ 1 := by
    simpa [keySlot, List.countP_eq_length_filter] using hone
  have hlost : 0 < ((firstWins keySlot [] b.kept).2.map Prod.fst).countP
      fun a => a.idempotencyKey = e.idempotencyKey := by
    rw [List.countP_append] at hall
    omega
  obtain ⟨a, ha, hkey⟩ := List.countP_pos_iff.mp hlost
  obtain ⟨p, hp, rfl⟩ := List.mem_map.mp ha
  have hmem : p.1 ∈ b.kept := firstWins_perm.mem_iff.mp (List.mem_append_right _ ha)
  have hl : p.1 ∈ l := (perm_sortByKey l).mem_iff.mp ((Batch.mem_dropStale _).mp hmem).1
  have hnamed : p.1.intentId.text ∈ b.dropDuplicates.superseded := Superseded.mem_record hp
  rw [hids p.1 hl (by simpa using hkey)] at hnamed
  exact Batch.resolve_superseded b extended hnamed

section Derived

variable [Sha256] [DebugText]

/-- The map names a survivor exactly for its repeats: only where another unexpired candidate
has its id, and always where one has its key. No other entry maps an id to itself. -/
theorem superseded_names_repeats (l : List FullEnvelope) (now : ℤ) (extended : Bool)
    (hmade : ∀ e ∈ l, ∃ fields, makeIntent fields = .ok e) :
    (∀ e ∈ (arbitrate l now extended).ordered,
      (e.intentId.text ∈ (arbitrate l now extended).superseded →
        2 ≤ sharing now e.intentId.text l) ∧
      (2 ≤ (l.countP fun a => !Stale now a && a.idempotencyKey = e.idempotencyKey) →
        e.intentId.text ∈ (arbitrate l now extended).superseded)) ∧
    (∀ id, (arbitrate l now extended).superseded[id]? = some id → 2 ≤ sharing now id l) ∧
    ((∀ id, sharing now id l ≤ 1) → SparesSurvivors (arbitrate l now extended)) := by
  have hids : ∀ a ∈ l, ∀ e ∈ l, a.idempotencyKey = e.idempotencyKey →
      a.intentId.text = e.intentId.text := by
    intro a ha e he hkey
    obtain ⟨_, hfa⟩ := hmade a ha
    obtain ⟨_, hfe⟩ := hmade e he
    rw [(makeIntent_key hfa).2.1, (makeIntent_key hfe).2.1, hkey]
  refine ⟨?_, fun id => shared_of_itself, ?_⟩
  · intro e he
    have hl : e ∈ l := (arbitrate_perm l now extended).mem_iff.mp (List.mem_append_left _ he)
    exact ⟨shared_of_named he, named_of_repeated fun a ha => hids a ha e hl⟩
  · intro hdistinct
    constructor
    · intro e he hnamed
      have htwo := shared_of_named he hnamed
      have hone := hdistinct e.intentId.text
      omega
    · intro id winner hid hitself
      rw [hitself] at hid
      have htwo := shared_of_itself hid
      have hone := hdistinct id
      omega

end Derived

/-- Two proposals with one identity: the one that loses is named, and so is the one that wins. -/
theorem survivor_named :
    ¬ ∀ l : List FullEnvelope,
      (∀ e ∈ l, ∃ fields, @makeIntent knownDigests plainDebug fields = .ok e) →
        ∀ (now : ℤ) (extended : Bool), SparesSurvivors (arbitrate l now extended) := by
  intro h
  have hmade : ∀ e ∈ [rebalanceProposal, rivalProposal],
      ∃ fields, @makeIntent knownDigests plainDebug fields = .ok e := by
    intro e he
    simp only [List.mem_cons, List.not_mem_nil, or_false] at he
    cases he with
    | inl h => exact h ▸ rebalanceProposal_made
    | inr h => exact h ▸ rivalProposal_made
  have hitself := (h _ hmade 0 false).2 "int-1119af2f103eb344" "int-1119af2f103eb344"
  exact hitself (by decide) rfl

/-- The repeat of a proposal, and the proposal whose id names it. -/
theorem repeated_proposal_named :
    rebalanceProposal.intentId.text ∈
      (arbitrate [rebalanceProposal, rivalProposal] 0 false).superseded := by
  refine ((@superseded_names_repeats knownDigests plainDebug
    [rebalanceProposal, rivalProposal] 0 false ?_).1 rebalanceProposal ?_).2 ?_
  · intro e he
    simp only [List.mem_cons, List.not_mem_nil, or_false] at he
    cases he with
    | inl h => exact h ▸ rebalanceProposal_made
    | inr h => exact h ▸ rivalProposal_made
  · have hordered : (arbitrate [rebalanceProposal, rivalProposal] 0 false).ordered =
        [rebalanceProposal] := rfl
    rw [hordered]
    exact List.mem_singleton_self _
  · decide

end Arbiter
