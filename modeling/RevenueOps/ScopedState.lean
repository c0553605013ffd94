import RevenueOps.FallibleState
import Mathlib.Order.Defs.Unbundled

/-! Parts of a state, and what a computation can do to a state whatever its outcome.
A computation on a part leaves the rest alone by construction; relations that are preorders
compose along a program. -/
namespace FallibleState

variable {σ ρ ε α β : Type}

structure Part (σ ρ : Type) where
  get : σ → ρ
  put : ρ → σ → σ

/-- Run a computation on a part; what it wrote there stays, also after an error. -/
def Eff.on (l : Part σ ρ) (m : Eff ρ ε α) : Eff σ ε α := fun s =>
  ((m (l.get s)).1, l.put (m (l.get s)).2 s)

theorem returned {m : Eff σ ε α} {f : α → σ → Prop} {s t : σ} {a : α}
    (h : wp m (Post.returns f) s) (hm : m s = (.ok a, t)) : f a t := wp_ok h hm

theorem returns_of {m : Eff σ ε α} {f : α → σ → Prop} {s : σ}
    (h : ∀ a t, m s = (.ok a, t) → f a t) : wp m (Post.returns f) s := by
  unfold wp
  rcases hm : m s with ⟨r, t⟩
  cases r with
  | ok a => exact h a t hm
  | err e => exact trivial
  | panic => exact trivial

theorem returns_on {l : Part σ ρ} {m : Eff ρ ε α} {f : α → σ → Prop} {s : σ}
    (h : wp m (Post.returns fun a t => f a (l.put t s)) (l.get s)) :
    wp (Eff.on l m) (Post.returns f) s := by
  apply returns_of
  intro a t hm
  obtain ⟨hr, rfl⟩ := Prod.ext_iff.mp hm
  have hpart : m (l.get s) = (.ok a, (m (l.get s)).2) := Prod.ext hr rfl
  exact wp_ok h hpart

theorem returns_modify_bind {f : σ → σ} {k : Unit → Eff σ ε β} {g : β → σ → Prop} {s : σ}
    (h : wp (k ()) (Post.returns g) (f s)) : wp (Eff.modify f >>= k) (Post.returns g) s :=
  (wp_bind _ _ _ _).mpr ((wp_modify _ _ _).mpr h)

theorem returns_read_bind {f : σ → α} {k : α → Eff σ ε β} {g : β → σ → Prop} {s : σ}
    (h : wp (k (f s)) (Post.returns g) s) : wp (Eff.read f >>= k) (Post.returns g) s :=
  (wp_bind _ _ _ _).mpr ((wp_read _ _ _).mpr h)

/-- A sequence that fails does so in its first part or in its second. -/
theorem bind_err {m : Eff σ ε α} {k : α → Eff σ ε β} {s t : σ} {e : ε}
    (h : (m >>= k) s = (.err e, t)) :
    m s = (.err e, t) ∨ ∃ a u, m s = (.ok a, u) ∧ k a u = (.err e, t) := by
  change Eff.bind m k s = _ at h
  unfold Eff.bind at h
  rcases hm : m s with ⟨r, u⟩
  rw [hm] at h
  cases r with
  | ok a => exact Or.inr ⟨a, u, rfl, h⟩
  | err e' =>
    cases h
    exact Or.inl rfl
  | panic => cases h

theorem bind_ok {m : Eff σ ε α} {k : α → Eff σ ε β} {s t : σ} {b : β}
    (h : (m >>= k) s = (.ok b, t)) : ∃ a u, m s = (.ok a, u) ∧ k a u = (.ok b, t) := by
  change Eff.bind m k s = _ at h
  unfold Eff.bind at h
  rcases hm : m s with ⟨r, u⟩
  rw [hm] at h
  cases r with
  | ok a => exact ⟨a, u, rfl, h⟩
  | err e => cases h
  | panic => cases h

theorem returns_and {m : Eff σ ε α} {f g : α → σ → Prop} {s : σ}
    (hf : wp m (Post.returns f) s) (hg : wp m (Post.returns g) s) :
    wp m (Post.returns fun a t => f a t ∧ g a t) s :=
  returns_of fun _ _ h => ⟨returned hf h, returned hg h⟩

/-- Whatever its outcome, the computation moves the state within the relation. -/
def Within (R : σ → σ → Prop) (m : Eff σ ε α) : Prop := ∀ s, R s (m s).2

section Within

variable {R : σ → σ → Prop} {m : Eff σ ε α}

theorem within_modify {f : σ → σ} (h : ∀ s, R s (f s)) : Within R (Eff.modify f : Eff σ ε Unit) := h

theorem within_on {l : Part σ ρ} {m : Eff ρ ε α} (h : ∀ s t, R s (l.put t s)) :
    Within R (Eff.on l m) := fun s => h s _

theorem within_run (h : Within R m) {s t : σ} {r : Outcome ε α} (hm : m s = (r, t)) : R s t := by
  have hs := h s
  rwa [hm] at hs

theorem Within.mono {S : σ → σ → Prop} (h : Within R m) (hRS : ∀ s t, R s t → S s t) :
    Within S m := fun s => hRS _ _ (h s)

theorem returns_of_within (h : Within R m) (s : σ) : wp m (Post.returns fun _ t => R s t) s := by
  apply returns_of
  intro a t hm
  have := h s
  rwa [hm] at this

theorem within_ite {c : Prop} [Decidable c] {k : Eff σ ε α} (hm : c → Within R m)
    (hk : ¬c → Within R k) : Within R (if c then m else k) := by
  by_cases h : c
  · rw [if_pos h]
    exact hm h
  · rw [if_neg h]
    exact hk h

theorem within_seq {P Q : σ → σ → Prop} {f : α → Eff σ ε β} (hm : Within P m)
    (hf : ∀ a, Within Q (f a)) (hP : ∀ s t, P s t → R s t)
    (hPQ : ∀ s t u, P s t → Q t u → R s u) : Within R (m >>= f) := by
  intro s
  change R s (Eff.bind m f s).2
  have hs := hm s
  unfold Eff.bind
  rcases h : m s with ⟨r, t⟩
  rw [h] at hs
  cases r with
  | ok a => exact hPQ _ _ _ hs (hf a t)
  | err e => exact hP _ _ hs
  | panic => exact hP _ _ hs

variable [IsPreorder σ R]

theorem within_pure (a : α) : Within R (Pure.pure a : Eff σ ε α) := fun s => refl s

theorem within_read (f : σ → α) : Within R (Eff.read f : Eff σ ε α) := fun s => refl s

theorem within_bind {f : α → Eff σ ε β} (hm : Within R m) (hf : ∀ a, Within R (f a)) :
    Within R (m >>= f) :=
  within_seq hm hf (fun _ _ h => h) fun _ _ _ h k => IsTrans.trans _ _ _ h k

def Keeping (P : σ → Prop) (s t : σ) : Prop := P s → P t

instance (P : σ → Prop) : IsPreorder σ (Keeping P) where
  refl _ h := h
  trans _ _ _ h k := fun hs => k (h hs)

theorem returns_of_keeping {P : σ → Prop} {m : Eff σ ε α} (h : Within (Keeping P) m) {s : σ}
    (hs : P s) : wp m (Post.returns fun _ t => P t) s :=
  returns_mono (returns_of_within h s) fun _ _ hkeep => hkeep hs

end Within

end FallibleState
