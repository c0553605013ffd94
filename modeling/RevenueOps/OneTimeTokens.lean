import Mathlib.Data.Set.Basic
import Mathlib.Logic.Relation

/-! Tokens that are spent once. A holder takes its token when no record of it is left; holders may
stop holding, and records may be lost of tokens that nobody holds any more. -/
namespace OneTimeTokens

variable {β τ : Type}

structure Register (β τ : Type) where
  spent : Set τ
  holds : β → Option τ

structure Sound (r : Register β τ) : Prop where
  recorded : ∀ b t, r.holds b = some t → t ∈ r.spent
  unique : ∀ b c t, r.holds b = some t → r.holds c = some t → b = c

structure Keeps (r s : Register β τ) : Prop where
  holders : ∀ b t, s.holds b = some t → r.holds b = some t
  records : ∀ b t, s.holds b = some t → t ∈ r.spent → t ∈ s.spent

structure Acquires (b : β) (t : τ) (r s : Register β τ) : Prop where
  free : t ∉ r.spent
  recorded : t ∈ s.spent
  records : ∀ u ∈ r.spent, u ∈ s.spent
  holder : s.holds b = some t
  others : ∀ c, c ≠ b → s.holds c = r.holds c

inductive Change (r s : Register β τ) : Prop where
  | keeps : Keeps r s → Change r s
  | acquires (b : β) (t : τ) : Acquires b t r s → Change r s

variable {r s : Register β τ}

theorem Sound.keeps (h : Sound r) (hc : Keeps r s) : Sound s where
  recorded b t hb := hc.records b t hb (h.recorded b t (hc.holders b t hb))
  unique b c t hb hd := h.unique b c t (hc.holders b t hb) (hc.holders c t hd)

theorem Sound.acquires {b : β} {t : τ} (h : Sound r) (hc : Acquires b t r s) : Sound s := by
  have hold : ∀ c u, c ≠ b → s.holds c = some u → r.holds c = some u := by
    intro c u hcb hu
    rw [← hc.others c hcb]
    exact hu
  have fresh : ∀ c, c ≠ b → s.holds c ≠ some t := by
    intro c hcb hu
    exact hc.free (h.recorded c t (hold c t hcb hu))
  constructor
  · intro c u hu
    by_cases hcb : c = b
    · subst hcb
      obtain rfl : t = u := by simpa [hc.holder] using hu
      exact hc.recorded
    · exact hc.records u (h.recorded c u (hold c u hcb hu))
  · intro c d u hu hv
    by_cases hcb : c = b
    · subst hcb
      obtain rfl : t = u := by simpa [hc.holder] using hu
      by_contra hdc
      exact fresh d (fun h => hdc h.symm) hv
    · by_cases hdb : d = b
      · subst hdb
        obtain rfl : t = u := by simpa [hc.holder] using hv
        exact absurd hu (fresh c hcb)
      · exact h.unique c d u (hold c u hcb hu) (hold d u hdb hv)

theorem Sound.change (h : Sound r) (hc : Change r s) : Sound s := by
  cases hc with
  | keeps hc => exact h.keeps hc
  | acquires b t hc => exact h.acquires hc

theorem sound_of_none (h : ∀ b, r.holds b = none) : Sound r := by
  constructor
  · intro b t hb
    simp [h b] at hb
  · intro b c t hb
    simp [h b] at hb

end OneTimeTokens
