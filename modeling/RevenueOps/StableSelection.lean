import Mathlib.Data.List.Sort
import Mathlib.Order.Basic

/-! Stable sorting by a key, and the pass that keeps the first item of every slot.
An item without a slot is always kept. -/
namespace StableSelection

section Sorting

variable {α κ : Type} [LinearOrder κ] (key : α → κ)

def sortByKey (l : List α) : List α := l.insertionSort fun a b => key a ≤ key b

variable {key}

theorem perm_sortByKey (l : List α) : (sortByKey key l).Perm l := List.perm_insertionSort _ l

theorem pairwise_sortByKey (l : List α) :
    (sortByKey key l).Pairwise fun a b => key a ≤ key b := by
  have : Std.Total fun a b : α => key a ≤ key b := ⟨fun a b => le_total (key a) (key b)⟩
  have : IsTrans α fun a b => key a ≤ key b := ⟨fun _ _ _ => le_trans⟩
  exact List.pairwise_insertionSort _ l

theorem sortByKey_of_pairwise {l : List α} (h : l.Pairwise fun a b => key a ≤ key b) :
    sortByKey key l = l := h.insertionSort_eq

theorem filter_orderedInsert (a : α) (l : List α) (k : κ) :
    (l.orderedInsert (fun a b => key a ≤ key b) a).filter (fun a => key a = k) =
      (a :: l).filter fun a => key a = k := by
  induction l with
  | nil => rfl
  | cons b l ih =>
    by_cases hab : key a ≤ key b
    · simp [List.orderedInsert_cons, hab]
    · rw [List.orderedInsert_cons, if_neg hab, List.filter_cons, ih]
      by_cases ha : key a = k
      · have hb : key b ≠ k := fun hb => hab (ha.trans hb.symm).le
        simp [ha, hb]
      · simp [List.filter_cons, ha]

theorem filter_sortByKey (l : List α) (k : κ) :
    (sortByKey key l).filter (fun a => key a = k) = l.filter fun a => key a = k := by
  induction l with
  | nil => rfl
  | cons a l ih =>
    have hsort : sortByKey key (a :: l) =
        (sortByKey key l).orderedInsert (fun a b => key a ≤ key b) a := rfl
    rw [hsort, filter_orderedInsert, List.filter_cons, List.filter_cons, ih]

/-- A relation between the items of one key, in their order, is one on the items of each key. -/
theorem pairwise_sameKey_iff {P : α → α → Prop} {l : List α} :
    l.Pairwise (fun a b => key a = key b → P a b) ↔
      ∀ k, (l.filter fun a => key a = k).Pairwise P := by
  constructor
  · intro h k
    refine (h.filter _).imp_of_mem ?_
    intro a b ha hb hab
    have hka : key a = k := by simpa using (List.mem_filter.mp ha).2
    have hkb : key b = k := by simpa using (List.mem_filter.mp hb).2
    exact hab (hka.trans hkb.symm)
  · intro h
    induction l with
    | nil => exact List.Pairwise.nil
    | cons a l ih =>
      rw [List.pairwise_cons]
      constructor
      · intro b hb hab
        have hkey := h (key a)
        rw [List.filter_cons_of_pos (by simp), List.pairwise_cons] at hkey
        exact hkey.1 b (List.mem_filter.mpr ⟨hb, by simp [hab]⟩)
      · apply ih
        intro k
        exact (h k).sublist ((List.sublist_cons_self a l).filter _)

theorem sameKey_sortByKey {P : α → α → Prop} {l : List α}
    (h : l.Pairwise fun a b => key a = key b → P a b) :
    (sortByKey key l).Pairwise fun a b => key a = key b → P a b := by
  rw [pairwise_sameKey_iff] at h ⊢
  intro k
  rw [filter_sortByKey]
  exact h k

/-- A sorted list is determined by its items where their keys tell them apart. -/
theorem eq_of_perm_of_separated {l m : List α} (hp : l.Perm m)
    (hl : l.Pairwise fun a b => key a ≤ key b) (hm : m.Pairwise fun a b => key a ≤ key b)
    (hsep : ∀ a ∈ l, ∀ b ∈ l, key a = key b → a = b) : l = m := by
  refine List.Perm.eq_of_pairwise ?_ hl hm hp
  intro a b ha hb hab hba
  exact hsep a ha b (hp.mem_iff.mpr hb) (le_antisymm hab hba)

end Sorting

section FirstWins

variable {α κ : Type} [DecidableEq κ] (slot : α → Option κ)

/-- Items that are kept, and each other item with the one that holds its slot. -/
def firstWins (seen : List (κ × α)) : List α → List α × List (α × α)
  | [] => ([], [])
  | a :: as =>
    match slot a with
    | none => ((a :: (firstWins seen as).1), (firstWins seen as).2)
    | some k =>
      match seen.lookup k with
      | some w => ((firstWins seen as).1, (a, w) :: (firstWins seen as).2)
      | none => (a :: (firstWins ((k, a) :: seen) as).1, (firstWins ((k, a) :: seen) as).2)

variable {slot} {seen : List (κ × α)} {l : List α}

@[simp] theorem firstWins_nil : firstWins slot seen [] = ([], []) := rfl

theorem firstWins_free {a : α} (ha : slot a = none) :
    firstWins slot seen (a :: l) = (a :: (firstWins slot seen l).1, (firstWins slot seen l).2) := by
  simp [firstWins, ha]

theorem firstWins_taken {a w : α} {k : κ} (ha : slot a = some k) (hw : seen.lookup k = some w) :
    firstWins slot seen (a :: l) =
      ((firstWins slot seen l).1, (a, w) :: (firstWins slot seen l).2) := by
  simp [firstWins, ha, hw]

theorem firstWins_first {a : α} {k : κ} (ha : slot a = some k) (hw : seen.lookup k = none) :
    firstWins slot seen (a :: l) =
      (a :: (firstWins slot ((k, a) :: seen) l).1, (firstWins slot ((k, a) :: seen) l).2) := by
  simp [firstWins, ha, hw]

theorem lookup_cons_of_ne {k k' : κ} {a : α} (h : k ≠ k') :
    ((k', a) :: seen).lookup k = seen.lookup k := by
  rw [List.lookup_cons, beq_false_of_ne h]

theorem lookup_cons_ne_none {k k' : κ} {a : α} (h : seen.lookup k ≠ none) :
    ((k', a) :: seen).lookup k ≠ none := by
  rw [List.lookup_cons]
  split <;> simp_all

theorem firstWins_kept_sublist : ((firstWins slot seen l).1).Sublist l := by
  induction l generalizing seen with
  | nil => exact List.Sublist.slnil
  | cons a l ih =>
    cases ha : slot a with
    | none => simpa [firstWins_free ha] using ih
    | some k =>
      cases hw : seen.lookup k with
      | none => simpa [firstWins_first ha hw] using ih
      | some w => simpa [firstWins_taken ha hw] using ih.cons a

theorem firstWins_perm :
    ((firstWins slot seen l).1 ++ (firstWins slot seen l).2.map Prod.fst).Perm l := by
  induction l generalizing seen with
  | nil => exact List.Perm.nil
  | cons a l ih =>
    cases ha : slot a with
    | none => simpa [firstWins_free ha] using ih
    | some k =>
      cases hw : seen.lookup k with
      | none => simpa [firstWins_first ha hw] using ih
      | some w =>
        rw [firstWins_taken ha hw]
        exact List.perm_middle.trans (ih.cons a)

theorem firstWins_kept_free {a : α} {k : κ} (h : a ∈ (firstWins slot seen l).1)
    (hk : slot a = some k) : seen.lookup k = none := by
  induction l generalizing seen with
  | nil => simp at h
  | cons b l ih =>
    cases hb : slot b with
    | none =>
      rw [firstWins_free hb, List.mem_cons] at h
      cases h with
      | inl h => simp [← h, hk] at hb
      | inr h => exact ih h
    | some k' =>
      cases hw : seen.lookup k' with
      | none =>
        rw [firstWins_first hb hw, List.mem_cons] at h
        cases h with
        | inl h =>
          rw [← h, hk] at hb
          rwa [Option.some.inj hb]
        | inr h =>
          by_contra hne
          exact lookup_cons_ne_none hne (ih h)
      | some w =>
        rw [firstWins_taken hb hw] at h
        exact ih h

theorem firstWins_kept_distinct :
    ((firstWins slot seen l).1).Pairwise fun a b => ∀ k, slot a = some k → slot b ≠ some k := by
  induction l generalizing seen with
  | nil => exact List.Pairwise.nil
  | cons a l ih =>
    cases ha : slot a with
    | none =>
      rw [firstWins_free ha, List.pairwise_cons]
      exact ⟨fun b _ k hk => by simp [ha] at hk, ih⟩
    | some k =>
      cases hw : seen.lookup k with
      | none =>
        rw [firstWins_first ha hw, List.pairwise_cons]
        refine ⟨?_, ih⟩
        intro b hb k' hk' hbk
        obtain rfl : k = k' := Option.some.inj (ha.symm.trans hk')
        simpa using firstWins_kept_free hb hbk
      | some w =>
        rw [firstWins_taken ha hw]
        exact ih

theorem length_filter_slot_le_one
    (h : l.Pairwise fun a b => ∀ k, slot a = some k → slot b ≠ some k) (k : κ) :
    (l.filter fun a => slot a = some k).length ≤ 1 := by
  induction l with
  | nil => simp
  | cons a l ih =>
    rw [List.pairwise_cons] at h
    by_cases ha : slot a = some k
    · have hnone : l.filter (fun a => slot a = some k) = [] := by
        rw [List.filter_eq_nil_iff]
        intro b hb
        simpa using h.1 b hb k ha
      simp [ha, hnone]
    · simpa [ha] using ih h.2

theorem pairwise_of_length_filter_slot_le_one
    (h : ∀ k, (l.filter fun a => slot a = some k).length ≤ 1) :
    l.Pairwise fun a b => ∀ k, slot a = some k → slot b ≠ some k := by
  induction l with
  | nil => exact List.Pairwise.nil
  | cons a l ih =>
    have htail : ∀ k, (l.filter fun b => slot b = some k).length ≤ 1 := fun k =>
      ((List.sublist_cons_self a l).filter _).length_le.trans (h k)
    rw [List.pairwise_cons]
    refine ⟨?_, ih htail⟩
    intro b hb k ha hk
    have hpos := List.length_pos_of_mem
      (List.mem_filter.mpr ⟨hb, decide_eq_true hk⟩ : b ∈ l.filter fun b => slot b = some k)
    have hone := h k
    rw [List.filter_cons_of_pos (by simpa using ha), List.length_cons] at hone
    omega

/-- An item that loses its slot loses it to a kept item, or to one of the start. -/
theorem firstWins_lost {a w : α} (h : (a, w) ∈ (firstWins slot seen l).2) :
    ∃ k, slot a = some k ∧
      (seen.lookup k = some w ∨ slot w = some k ∧ w ∈ (firstWins slot seen l).1) := by
  induction l generalizing seen with
  | nil => simp at h
  | cons b l ih =>
    cases hb : slot b with
    | none =>
      rw [firstWins_free hb] at h ⊢
      obtain ⟨k, hk, hw⟩ := ih h
      exact ⟨k, hk, hw.imp_right fun hw => ⟨hw.1, List.mem_cons_of_mem b hw.2⟩⟩
    | some k' =>
      cases hs : seen.lookup k' with
      | none =>
        rw [firstWins_first hb hs] at h ⊢
        obtain ⟨k, hk, hw⟩ := ih h
        refine ⟨k, hk, ?_⟩
        cases hw with
        | inr hw => exact .inr ⟨hw.1, List.mem_cons_of_mem b hw.2⟩
        | inl hw =>
          by_cases hkk : k = k'
          · subst hkk
            obtain rfl : b = w := by simpa using hw
            exact .inr ⟨hb, List.mem_cons_self⟩
          · rw [lookup_cons_of_ne hkk] at hw
            exact .inl hw
      | some w' =>
        rw [firstWins_taken hb hs, List.mem_cons] at h
        rw [firstWins_taken hb hs]
        cases h with
        | inl h => exact ⟨k', by simp_all, .inl (by simp_all)⟩
        | inr h => exact ih h

theorem firstWins_winner {a : α} (ha : a ∈ l) :
    a ∈ (firstWins slot [] l).1 ∨
      ∃ w ∈ (firstWins slot [] l).1, ∃ k, slot a = some k ∧ slot w = some k := by
  have hperm : ((firstWins slot [] l).1 ++ (firstWins slot [] l).2.map Prod.fst).Perm l :=
    firstWins_perm
  have hmem := hperm.mem_iff.mpr ha
  rw [List.mem_append, List.mem_map] at hmem
  cases hmem with
  | inl hkept => exact .inl hkept
  | inr hlost =>
    obtain ⟨⟨a', w⟩, hlost, rfl⟩ := hlost
    obtain ⟨k, hk, hw⟩ := firstWins_lost hlost
    cases hw with
    | inl hseen => simp at hseen
    | inr hkept => exact .inr ⟨w, hkept.2, k, hk, hkept.1⟩

theorem firstWins_of_distinct
    (hfree : ∀ a ∈ l, ∀ k, slot a = some k → seen.lookup k = none)
    (hl : l.Pairwise fun a b => ∀ k, slot a = some k → slot b ≠ some k) :
    firstWins slot seen l = (l, []) := by
  induction l generalizing seen with
  | nil => rfl
  | cons a l ih =>
    rw [List.pairwise_cons] at hl
    have htail := fun b hb => hfree b (List.mem_cons_of_mem a hb)
    cases ha : slot a with
    | none => rw [firstWins_free ha, ih htail hl.2]
    | some k =>
      rw [firstWins_first ha (hfree a List.mem_cons_self k ha), ih ?_ hl.2]
      intro b hb k' hk'
      have hne : k' ≠ k := fun he => hl.1 b hb k ha (he ▸ hk')
      rw [lookup_cons_of_ne hne]
      exact htail b hb k' hk'

theorem filter_firstWins_lost (k : κ) :
    ((firstWins slot seen l).2.map Prod.fst).filter (fun a => slot a = some k) =
      if seen.lookup k = none then (l.filter fun a => slot a = some k).tail
      else l.filter fun a => slot a = some k := by
  induction l generalizing seen with
  | nil => simp
  | cons a l ih =>
    cases ha : slot a with
    | none => simp [firstWins_free ha, ih, ha]
    | some k' =>
      by_cases hk : k' = k
      · subst hk
        cases hw : seen.lookup k' with
        | none => simp [firstWins_first ha hw, ih, ha]
        | some w => simp [firstWins_taken ha hw, ih, ha, hw]
      · cases hw : seen.lookup k' with
        | none =>
          have hlookup := @lookup_cons_of_ne _ _ _ seen _ _ a (Ne.symm hk)
          rw [firstWins_first ha hw]
          simp only
          rw [ih, hlookup]
          simp [ha, hk]
        | some w => simp [firstWins_taken ha hw, ih, ha, hk]

end FirstWins

end StableSelection
