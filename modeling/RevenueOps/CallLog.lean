import Mathlib.Data.List.Infix

/-! Logs that only grow: a condition on each new entry over what was logged before it, and
openings that no closing has followed yet. -/
namespace CallLog

variable {α κ : Type*}

/-- The log grew, and each new entry meets the condition over the entries before it. -/
structure Grows (P : List α → α → Prop) (base log : List α) : Prop where
  kept : base <+: log
  entries : ∀ before c after, log = before ++ c :: after → base <+: before → P before c

namespace Grows

variable {P Q : List α → α → Prop} {a b c : List α}

theorem refl (P : List α → α → Prop) (a : List α) : Grows P a a := by
  constructor
  · exact List.prefix_refl a
  · intro before c after heq hpre
    have hlen := congrArg List.length heq
    have hle := hpre.length_le
    simp only [List.length_append, List.length_cons] at hlen
    omega

theorem snoc {e : α} (h : P a e) : Grows P a (a ++ [e]) := by
  constructor
  · exact List.prefix_append a [e]
  · intro before c after heq hpre
    obtain ⟨rest, rfl⟩ := hpre
    rw [List.append_assoc, List.append_cancel_left_eq] at heq
    cases rest with
    | nil =>
      rw [List.nil_append, List.cons.injEq] at heq
      obtain ⟨rfl, -⟩ := heq
      rwa [List.append_nil]
    | cons d rest => simp at heq

theorem trans (hab : Grows P a b) (hbc : Grows P b c) : Grows P a c := by
  constructor
  · exact hab.kept.trans hbc.kept
  · intro before e after heq hpre
    have hbefore : before <+: c := ⟨e :: after, heq.symm⟩
    rcases List.prefix_or_prefix_of_prefix hbc.kept hbefore with h | h
    · exact hbc.entries before e after heq h
    · obtain ⟨rest, rfl⟩ := h
      cases rest with
      | nil => exact hbc.entries before e after heq (by simp)
      | cons d rest =>
        obtain ⟨tail, rfl⟩ := hbc.kept
        rw [List.append_assoc, List.append_cancel_left_eq, List.cons_append, List.cons.injEq] at heq
        exact hab.entries before e rest (by rw [heq.1]) hpre

theorem mono (h : Grows P a b) (hPQ : ∀ before e, P before e → Q before e) : Grows Q a b := by
  constructor
  · exact h.kept
  · intro before e after heq hpre
    exact hPQ before e (h.entries before e after heq hpre)

theorem append {S : α → Prop} {new : List α} (h : ∀ e ∈ new, S e) :
    Grows (fun _ e => S e) a (a ++ new) := by
  induction new generalizing a with
  | nil => simpa using refl _ a
  | cons e new ih =>
    have hfirst : Grows (fun _ e => S e) a (a ++ [e]) := snoc (h e (by simp))
    have hrest := @ih (a ++ [e]) fun d hd => h d (List.mem_cons_of_mem e hd)
    rw [List.append_assoc, List.singleton_append] at hrest
    exact hfirst.trans hrest

end Grows

def Open (opens closes : α → κ → Prop) (log : List α) (k : κ) : Prop :=
  ∃ before e after, log = before ++ e :: after ∧ opens e k ∧ ∀ d ∈ after, ¬ closes d k

section Open

variable {opens closes : α → κ → Prop} {log new : List α} {k : κ}

theorem not_open_nil : ¬ Open opens closes [] k := by
  rintro ⟨before, e, after, heq, -⟩
  simp at heq

theorem open_snoc {e : α} :
    Open opens closes (log ++ [e]) k ↔
      opens e k ∨ (Open opens closes log k ∧ ¬ closes e k) := by
  constructor
  · rintro ⟨before, c, after, heq, hc, hafter⟩
    rcases List.eq_nil_or_concat after with rfl | ⟨init, d, rfl⟩
    · obtain ⟨rfl, rfl⟩ : log = before ∧ e = c := by
        simpa using List.append_inj' heq rfl
      exact .inl hc
    · obtain ⟨rfl, rfl⟩ : log = before ++ c :: init ∧ e = d := by
        rw [List.concat_eq_append, ← List.cons_append, ← List.append_assoc] at heq
        simpa using List.append_inj' heq rfl
      refine .inr ⟨⟨before, c, init, rfl, hc, fun x hx => hafter x ?_⟩, hafter e ?_⟩
      · rw [List.concat_eq_append]
        exact List.mem_append_left _ hx
      · simp
  · rintro (h | ⟨⟨before, c, after, rfl, hc, hafter⟩, hclose⟩)
    · exact ⟨log, e, [], rfl, h, by simp⟩
    · refine ⟨before, c, after ++ [e], by simp, hc, fun d hd => ?_⟩
      rcases List.mem_append.mp hd with hd | hd
      · exact hafter d hd
      · obtain rfl := List.mem_singleton.mp hd
        exact hclose

/-- What opens nothing leaves open only what it does not close. -/
theorem open_append_of_none (hnew : ∀ e ∈ new, ¬ opens e k) :
    Open opens closes (log ++ new) k ↔
      Open opens closes log k ∧ ∀ e ∈ new, ¬ closes e k := by
  induction new generalizing log with
  | nil => simp
  | cons e new ih =>
    have he : ¬ opens e k := hnew e (by simp)
    rw [← List.singleton_append, ← List.append_assoc,
      ih fun d hd => hnew d (List.mem_cons_of_mem e hd), open_snoc]
    simp [he, and_assoc]

end Open

end CallLog
