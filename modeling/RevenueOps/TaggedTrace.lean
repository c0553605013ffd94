import Mathlib.Data.List.Nodup
import Mathlib.Data.List.Pairwise

/-! Interleavings. A trace of tagged steps, in any order of the tags, and what each tag did. -/
namespace TaggedTrace

variable {κ α β : Type*} [DecidableEq κ]

def project (i : κ) (trace : List (κ × α)) : List α :=
  trace.filterMap fun step => if step.1 = i then some step.2 else none

variable {i j : κ} {a : α} {trace more : List (κ × α)} {xs ys : List α}

@[simp] theorem project_nil : project i ([] : List (κ × α)) = [] := rfl

@[simp] theorem project_append : project i (trace ++ more) = project i trace ++ project i more :=
  List.filterMap_append

@[simp] theorem project_cons_self : project i ((i, a) :: trace) = a :: project i trace :=
  List.filterMap_cons_some (if_pos rfl)

theorem project_cons_of_ne (h : j ≠ i) : project i ((j, a) :: trace) = project i trace :=
  List.filterMap_cons_none (if_neg h)

theorem mem_project : a ∈ project i trace ↔ (i, a) ∈ trace := by
  rw [project, List.mem_filterMap]
  constructor
  · rintro ⟨⟨j, b⟩, hmem, hb⟩
    by_cases hj : j = i
    · rw [if_pos hj] at hb
      cases hb
      exact hj ▸ hmem
    · rw [if_neg hj] at hb
      cases hb
  · intro hmem
    exact ⟨(i, a), hmem, if_pos rfl⟩

theorem project_eq_nil (h : ∀ a, (i, a) ∉ trace) : project i trace = [] := by
  rw [List.eq_nil_iff_forall_not_mem]
  exact fun a ha => h a (mem_project.mp ha)

theorem project_split (h : project i trace = xs ++ a :: ys) :
    ∃ before after, trace = before ++ (i, a) :: after ∧ project i before = xs ∧
      project i after = ys := by
  induction trace generalizing xs with
  | nil => simp at h
  | cons step trace ih =>
    obtain ⟨j, b⟩ := step
    by_cases hj : j = i
    · subst hj
      rw [project_cons_self] at h
      cases xs with
      | nil =>
        obtain ⟨rfl, rfl⟩ := List.cons.inj h
        exact ⟨[], trace, rfl, rfl, rfl⟩
      | cons x xs =>
        obtain ⟨rfl, hrest⟩ := List.cons.inj h
        obtain ⟨before, after, rfl, rfl, rfl⟩ := ih hrest
        exact ⟨(j, b) :: before, after, rfl, project_cons_self, rfl⟩
    · rw [project_cons_of_ne hj] at h
      obtain ⟨before, after, rfl, rfl, rfl⟩ := ih h
      exact ⟨(j, b) :: before, after, rfl, project_cons_of_ne hj, rfl⟩

theorem project_split_first (h : project i trace = a :: ys) :
    ∃ before after, trace = before ++ (i, a) :: after ∧ project i before = [] ∧
      project i after = ys := project_split h

omit [DecidableEq κ] in
theorem eq_of_nodup_filterMap {f : α → Option β} {l : List α} (h : (l.filterMap f).Nodup)
    {x y : α} {b : β} (hx : x ∈ l) (hy : y ∈ l) (hfx : f x = some b) (hfy : f y = some b) :
    x = y := by
  by_contra hne
  have hpairs := List.pairwise_filterMap.mp h
  have hsymm : Std.Symm fun x y => ∀ b, f x = some b → ∀ c, f y = some c → b ≠ c :=
    ⟨fun x y hxy b hb c hc => (hxy c hc b hb).symm⟩
  exact hpairs.forall hx hy hne b hfx b hfy rfl

end TaggedTrace
