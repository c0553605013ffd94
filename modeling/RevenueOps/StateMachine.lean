import Mathlib.Data.List.Basic

/-! Machines that take one event at a time, and the runs whose steps meet a condition.
A run is the list of its events, so a closed run is checked by evaluation. -/
namespace StateMachine

structure Machine (σ ε : Type) where
  Enabled : σ → ε → Prop
  next : σ → ε → σ

namespace Machine

variable {σ ε : Type} (m : Machine σ ε)

/-- The events are enabled one after the other, and each meets the condition where it happens. -/
def Follows (P : σ → ε → Prop) : σ → List ε → Prop
  | _, [] => True
  | s, e :: es => m.Enabled s e ∧ P s e ∧ Follows P (m.next s e) es

def run (s : σ) (es : List ε) : σ := es.foldl m.next s

instance decidableFollows [∀ s e, Decidable (m.Enabled s e)] {P : σ → ε → Prop}
    [∀ s e, Decidable (P s e)] : ∀ (s : σ) (es : List ε), Decidable (m.Follows P s es)
  | _, [] => isTrue trivial
  | s, e :: es =>
    have := decidableFollows (P := P) (m.next s e) es
    inferInstanceAs (Decidable (m.Enabled s e ∧ P s e ∧ m.Follows P (m.next s e) es))

variable {m} {P Q : σ → ε → Prop} {s : σ} {es fs : List ε}

theorem run_append : m.run s (es ++ fs) = m.run (m.run s es) fs := List.foldl_append

theorem follows_append :
    m.Follows P s (es ++ fs) ↔ m.Follows P s es ∧ m.Follows P (m.run s es) fs := by
  induction es generalizing s with
  | nil => simp [Follows, run]
  | cons e es ih => simp only [List.cons_append, Follows, ih, and_assoc]; rfl

theorem Follows.mono (h : m.Follows P s es) (hPQ : ∀ t e, P t e → Q t e) : m.Follows Q s es := by
  induction es generalizing s with
  | nil => trivial
  | cons e es ih => exact ⟨h.1, hPQ _ _ h.2.1, ih h.2.2⟩

theorem follows_of_forall (h : ∀ t e, m.Enabled t e ∧ P t e) : m.Follows P s es := by
  induction es generalizing s with
  | nil => trivial
  | cons e es ih => exact ⟨(h s e).1, (h s e).2, ih⟩

theorem Follows.invariant {I : σ → Prop} (h : m.Follows P s es) (hs : I s)
    (hstep : ∀ t e, I t → m.Enabled t e → P t e → I (m.next t e)) : I (m.run s es) := by
  induction es generalizing s with
  | nil => exact hs
  | cons e es ih => exact ih h.2.2 (hstep s e hs h.1 h.2.1)

/-- Where an invariant makes the first condition imply the second, so does every run. -/
theorem Follows.strengthen {I : σ → Prop} (h : m.Follows P s es) (hs : I s)
    (hstep : ∀ t e, I t → m.Enabled t e → P t e → I (m.next t e))
    (hPQ : ∀ t e, I t → m.Enabled t e → P t e → Q t e) : m.Follows Q s es := by
  induction es generalizing s with
  | nil => trivial
  | cons e es ih =>
    exact ⟨h.1, hPQ s e hs h.1 h.2.1, ih h.2.2 (hstep s e hs h.1 h.2.1)⟩

end Machine

end StateMachine
