import Mathlib.Logic.Function.Basic
import Mathlib.Data.List.Basic

/-! Two stores of the same keys, where a change of the source is copied to the mirror later.
Changes overlap freely, and another writer sets mirror keys from what it read before. -/
namespace MirroredStores

variable {κ ν : Type}

structure Stores (κ ν : Type) where
  source : κ → ν
  mirror : κ → ν
  underway : List (κ × ν)

def Awaits (underway : List (κ × ν)) (k : κ) : Prop := ∃ v, (k, v) ∈ underway

theorem awaits_append_singleton {l : List (κ × ν)} {k j : κ} {v : ν} :
    Awaits (l ++ [(k, v)]) j ↔ Awaits l j ∨ j = k := by
  simp [Awaits, exists_or]

theorem awaits_insert {before after : List (κ × ν)} {k j : κ} {v : ν} (hj : j ≠ k) :
    Awaits (before ++ (k, v) :: after) j ↔ Awaits (before ++ after) j := by
  simp [Awaits, hj]

inductive Move (κ ν : Type) where
  | change (k : κ) (v : ν)
  | copy (before after : List (κ × ν)) (k : κ) (v : ν)
  | overwrite (k : κ) (v : ν)
  | idle

section Steps

variable [DecidableEq κ]

inductive Step : Stores κ ν → Move κ ν → Stores κ ν → Prop where
  | change (s : Stores κ ν) (k : κ) (v : ν) : Step s (.change k v)
      { s with source := Function.update s.source k v, underway := s.underway ++ [(k, v)] }
  | copy (s : Stores κ ν) (before after : List (κ × ν)) (k : κ) (v : ν) :
      s.underway = before ++ (k, v) :: after → Step s (.copy before after k v)
        { s with mirror := Function.update s.mirror k v, underway := before ++ after }
  | overwrite (s : Stores κ ν) (k : κ) (v : ν) : Step s (.overwrite k v)
      { s with mirror := Function.update s.mirror k v }
  | idle (s : Stores κ ν) : Step s .idle s

/-- A write to the mirror is not late: it writes what the source holds, or another copy of the
key is still to come. -/
def Timely (s : Stores κ ν) : Move κ ν → Prop
  | .copy before after k v => Awaits (before ++ after) k ∨ v = s.source k
  | .overwrite k v => Awaits s.underway k ∨ v = s.source k
  | _ => True

def Settled (s : Stores κ ν) : Prop := ∀ k, ¬Awaits s.underway k → s.mirror k = s.source k

variable {s t : Stores κ ν} {m : Move κ ν}

/-- Setting one mirror key keeps the agreement exactly if that key agrees then or awaits a copy. -/
theorem settled_update {mirror source : κ → ν} {l rest : List (κ × ν)} {k : κ} {v : ν}
    (hs : ∀ j, j ≠ k → ¬Awaits l j → mirror j = source j)
    (hrest : ∀ j, j ≠ k → (Awaits l j ↔ Awaits rest j)) :
    Settled ⟨source, Function.update mirror k v, rest⟩ ↔ Awaits rest k ∨ v = source k := by
  constructor
  · intro h
    by_cases ha : Awaits rest k
    · exact Or.inl ha
    · have hk : Function.update mirror k v k = source k := h k ha
      rw [Function.update_self] at hk
      exact Or.inr hk
  · intro h j hj
    show Function.update mirror k v j = source j
    by_cases hjk : j = k
    · subst hjk
      rw [Function.update_self]
      exact h.resolve_left hj
    · rw [Function.update_of_ne hjk]
      exact hs j hjk fun ha => hj ((hrest j hjk).mp ha)

theorem settled_iff_timely (h : Step s m t) (hs : Settled s) : Settled t ↔ Timely s m := by
  cases h with
  | change k v =>
    refine iff_of_true ?_ trivial
    intro j hj
    rw [awaits_append_singleton, not_or] at hj
    show s.mirror j = Function.update s.source k v j
    rw [Function.update_of_ne hj.2]
    exact hs j hj.1
  | copy before after k v hsplit =>
    refine settled_update (l := s.underway) (fun j _ => hs j) ?_
    intro j hj
    rw [hsplit]
    exact awaits_insert hj
  | overwrite k v => exact settled_update (fun j _ => hs j) fun j _ => Iff.rfl
  | idle => exact iff_of_true hs trivial

inductive Run : Stores κ ν → List (Stores κ ν × Move κ ν) → Stores κ ν → Prop where
  | nil (s : Stores κ ν) : Run s [] s
  | cons {s t u : Stores κ ν} {m : Move κ ν} {run : List (Stores κ ν × Move κ ν)} :
      Step s m t → Run t run u → Run s ((s, m) :: run) u

theorem settled_head {run : List (Stores κ ν × Move κ ν)} (h : Run s run t)
    (hall : (∀ p ∈ run, Settled p.1) ∧ Settled t) : Settled s := by
  cases h with
  | nil => exact hall.2
  | cons _ _ => exact hall.1 _ List.mem_cons_self

/-- The stores are settled all along a run exactly when no write of it is late. -/
theorem run_settled_iff {run : List (Stores κ ν × Move κ ν)} (h : Run s run t) (hs : Settled s) :
    ((∀ p ∈ run, Settled p.1) ∧ Settled t) ↔ ∀ p ∈ run, Timely p.1 p.2 := by
  induction h with
  | nil s => simp [hs]
  | cons hstep hrun ih =>
    have hone := settled_iff_timely hstep hs
    simp only [List.mem_cons, forall_eq_or_imp, hs, true_and]
    constructor
    · intro hall
      have hnext : Settled _ := settled_head hrun hall
      exact ⟨hone.mp hnext, (ih hnext).mp hall⟩
    · rintro ⟨htimely, hrest⟩
      exact (ih (hone.mpr htimely)).mpr hrest

end Steps

end MirroredStores
