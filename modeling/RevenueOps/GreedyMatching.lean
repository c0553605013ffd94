import Mathlib.Data.List.Basic

/-! The greedy matching of a list of edges: an edge is taken when both of its ends are free, until
a limit is reached. -/
namespace GreedyMatching

variable {ε α β : Type} [DecidableEq α] [DecidableEq β] (source : ε → α) (target : ε → β)

def Blocked (taken : List ε) (e : ε) : Prop :=
  ∃ t ∈ taken, source t = source e ∨ target t = target e

instance (taken : List ε) (e : ε) : Decidable (Blocked source target taken e) :=
  inferInstanceAs (Decidable (∃ t ∈ taken, _))

def greedy (limit : ℕ) (taken : List ε) : List ε → List ε
  | [] => taken
  | e :: es =>
    if limit ≤ taken.length then taken
    else if Blocked source target taken e then greedy limit taken es
    else greedy limit (taken ++ [e]) es

def Matching (l : List ε) : Prop := l.Pairwise fun a b => source a ≠ source b ∧ target a ≠ target b

variable {source target} {limit : ℕ} {taken es : List ε}

omit [DecidableEq α] [DecidableEq β] in
theorem matching_snoc {e : ε} (h : Matching source target taken)
    (he : ¬Blocked source target taken e) : Matching source target (taken ++ [e]) := by
  apply List.pairwise_append.mpr
  refine ⟨h, List.pairwise_singleton _ _, ?_⟩
  intro t ht u hu
  obtain rfl := List.mem_singleton.mp hu
  exact ⟨fun hs => he ⟨t, ht, .inl hs⟩, fun hs => he ⟨t, ht, .inr hs⟩⟩

theorem greedy_matching (h : Matching source target taken) :
    Matching source target (greedy source target limit taken es) := by
  induction es generalizing taken with
  | nil => exact h
  | cons e es ih =>
    unfold greedy
    by_cases hfull : limit ≤ taken.length
    · rw [if_pos hfull]
      exact h
    · rw [if_neg hfull]
      by_cases hblocked : Blocked source target taken e
      · rw [if_pos hblocked]
        exact ih h
      · rw [if_neg hblocked]
        exact ih (matching_snoc h hblocked)

theorem greedy_adds : ∃ new, greedy source target limit taken es = taken ++ new ∧
    new.Sublist es := by
  induction es generalizing taken with
  | nil => exact ⟨[], (List.append_nil _).symm, List.Sublist.slnil⟩
  | cons e es ih =>
    unfold greedy
    by_cases hfull : limit ≤ taken.length
    · rw [if_pos hfull]
      exact ⟨[], (List.append_nil _).symm, List.nil_sublist _⟩
    · rw [if_neg hfull]
      by_cases hblocked : Blocked source target taken e
      · rw [if_pos hblocked]
        obtain ⟨new, heq, hsub⟩ := @ih taken
        exact ⟨new, heq, hsub.cons e⟩
      · rw [if_neg hblocked]
        obtain ⟨new, heq, hsub⟩ := @ih (taken ++ [e])
        exact ⟨e :: new, by rw [heq, List.append_assoc, List.singleton_append], hsub.cons_cons e⟩

theorem greedy_sublist : (greedy source target limit [] es).Sublist es := by
  obtain ⟨new, heq, hsub⟩ := @greedy_adds ε α β _ _ source target limit [] es
  rw [heq]
  exact hsub

theorem mem_greedy_of_mem {t : ε} (h : t ∈ taken) : t ∈ greedy source target limit taken es := by
  obtain ⟨new, heq, -⟩ := @greedy_adds ε α β _ _ source target limit taken es
  rw [heq]
  exact List.mem_append_left _ h

theorem length_greedy (h : taken.length ≤ limit) :
    (greedy source target limit taken es).length ≤ limit := by
  induction es generalizing taken with
  | nil => exact h
  | cons e es ih =>
    unfold greedy
    by_cases hfull : limit ≤ taken.length
    · rw [if_pos hfull]
      exact h
    · rw [if_neg hfull]
      by_cases hblocked : Blocked source target taken e
      · rw [if_pos hblocked]
        exact ih h
      · rw [if_neg hblocked]
        apply ih
        rw [List.length_append, List.length_singleton]
        omega

theorem greedy_maximal (h : (greedy source target limit taken es).length < limit) :
    ∀ e ∈ es, Blocked source target (greedy source target limit taken es) e := by
  induction es generalizing taken with
  | nil => exact fun e he => (List.not_mem_nil he).elim
  | cons e es ih =>
    unfold greedy at h ⊢
    by_cases hfull : limit ≤ taken.length
    · rw [if_pos hfull] at h
      omega
    · rw [if_neg hfull] at h ⊢
      by_cases hblocked : Blocked source target taken e
      · rw [if_pos hblocked] at h ⊢
        intro f hf
        rcases List.mem_cons.mp hf with rfl | hf
        · obtain ⟨t, ht, hshare⟩ := hblocked
          exact ⟨t, mem_greedy_of_mem ht, hshare⟩
        · exact ih h f hf
      · rw [if_neg hblocked] at h ⊢
        intro f hf
        rcases List.mem_cons.mp hf with rfl | hf
        · exact ⟨f, mem_greedy_of_mem (List.mem_append_right _ List.mem_cons_self), .inl rfl⟩
        · exact ih h f hf

end GreedyMatching
