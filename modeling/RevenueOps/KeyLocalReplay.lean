import Mathlib.Data.List.Basic

/-! Replays whose state is a family of cells, one for each key, where an event reads and writes
the cell of its own key only, and may fail on what it reads there. -/
namespace KeyLocalReplay

variable {σ ε κ γ err : Type} [DecidableEq κ]

structure KeyLocal (step : σ → ε → Except err σ) (key : ε → κ) (cell : σ → κ → γ)
    (Accepts : γ → ε → Prop) (next : γ → ε → γ) : Prop where
  ok_iff : ∀ s e, (∃ t, step s e = .ok t) ↔ Accepts (cell s (key e)) e
  cell_eq : ∀ s e t, step s e = .ok t →
    ∀ k, cell t k = if key e = k then next (cell s k) e else cell s k

def AcceptsAll (Accepts : γ → ε → Prop) (next : γ → ε → γ) : γ → List ε → Prop
  | _, [] => True
  | c, e :: es => Accepts c e ∧ AcceptsAll Accepts next (next c e) es

def own (key : ε → κ) (k : κ) (es : List ε) : List ε := es.filter fun e => key e = k

variable {step : σ → ε → Except err σ} {key : ε → κ} {cell : σ → κ → γ}
  {Accepts : γ → ε → Prop} {next : γ → ε → γ} {c : γ} {s t : σ} {es fs : List ε}

theorem own_cons_self {e : ε} : own key (key e) (e :: es) = e :: own key (key e) es := by
  simp [own]

theorem own_cons_of_ne {e : ε} {k : κ} (h : key e ≠ k) : own key k (e :: es) = own key k es := by
  simp [own, h]

theorem exists_of_not_acceptsAll (h : ¬ AcceptsAll Accepts next c es) :
    ∃ pre e post, es = pre ++ e :: post ∧ ¬ Accepts (pre.foldl next c) e := by
  induction es generalizing c with
  | nil => exact absurd trivial h
  | cons e es ih =>
    by_cases he : Accepts c e
    · obtain ⟨pre, e', post, heq, hne⟩ := ih fun hall => h ⟨he, hall⟩
      exact ⟨e :: pre, e', post, by rw [heq]; rfl, hne⟩
    · exact ⟨[], e, es, rfl, he⟩

namespace KeyLocal

variable (h : KeyLocal step key cell Accepts next)
include h

theorem run_ok_iff : (∃ t, es.foldlM step s = .ok t) ↔
    ∀ k, AcceptsAll Accepts next (cell s k) (own key k es) := by
  induction es generalizing s with
  | nil => exact ⟨fun _ _ => trivial, fun _ => ⟨s, rfl⟩⟩
  | cons e es ih =>
    constructor
    · rintro ⟨t, ht⟩ k
      rw [List.foldlM_cons] at ht
      cases hs : step s e with
      | error x => simp [hs, bind, Except.bind] at ht
      | ok s' =>
        have hrest := ih.mp ⟨t, by simpa [hs, bind, Except.bind] using ht⟩ k
        rw [h.cell_eq s e s' hs k] at hrest
        by_cases hk : key e = k
        · subst hk
          rw [if_pos rfl] at hrest
          rw [own_cons_self]
          exact ⟨(h.ok_iff s e).mp ⟨s', hs⟩, hrest⟩
        · rw [if_neg hk] at hrest
          rwa [own_cons_of_ne hk]
    · intro hall
      have hown := hall (key e)
      rw [own_cons_self] at hown
      obtain ⟨s', hs⟩ := (h.ok_iff s e).mpr hown.1
      have hrest : ∃ t, es.foldlM step s' = .ok t := by
        refine ih.mpr fun k => ?_
        rw [h.cell_eq s e s' hs k]
        by_cases hk : key e = k
        · subst hk
          rw [if_pos rfl]
          exact hown.2
        · rw [if_neg hk]
          have hk' := hall k
          rwa [own_cons_of_ne hk] at hk'
      obtain ⟨t, ht⟩ := hrest
      exact ⟨t, by rw [List.foldlM_cons, hs]; exact ht⟩

/-- After a replay every cell is the fold of the key's own events alone. -/
theorem run_cell (hrun : es.foldlM step s = .ok t) (k : κ) :
    cell t k = (own key k es).foldl next (cell s k) := by
  induction es generalizing s with
  | nil =>
    obtain rfl := Except.ok.inj hrun
    rfl
  | cons e es ih =>
    rw [List.foldlM_cons] at hrun
    cases hs : step s e with
    | error x => simp [hs, bind, Except.bind] at hrun
    | ok s' =>
      rw [ih (by simpa [hs, bind, Except.bind] using hrun), h.cell_eq s e s' hs k]
      by_cases hk : key e = k
      · subst hk
        rw [if_pos rfl, own_cons_self, List.foldl_cons]
      · rw [if_neg hk, own_cons_of_ne hk]

end KeyLocal

end KeyLocalReplay
