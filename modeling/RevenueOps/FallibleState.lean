import Mathlib.Logic.Basic
import Mathlib.Data.List.Basic

/-! Stateful computations that return, fail with an error, or panic.
An error keeps the state written before it, as an early exit through `?` does.
The predicate transformer below is total on the three outcomes, so a rule about a
composite never assumes that its parts return. -/
namespace FallibleState

inductive Outcome (ε α : Type*) where
  | ok (a : α)
  | err (e : ε)
  | panic
  deriving DecidableEq, Repr

def Outcome.value {ε α : Type*} : Outcome ε α → Option α
  | ok a => some a
  | _ => none

@[simp] theorem value_eq_some {ε α : Type*} {r : Outcome ε α} {a : α} :
    r.value = some a ↔ r = .ok a := by
  cases r <;> simp [Outcome.value]

theorem ok_of_isSome {ε α : Type*} {r : Outcome ε α} {d : α} (h : r.value.isSome = true) :
    r = .ok (r.value.getD d) := by
  cases r <;> simp_all [Outcome.value]

def Outcome.Returned {ε α : Type*} (r : Outcome ε α) : Prop := r ≠ .panic

instance {ε α : Type*} (r : Outcome ε α) : Decidable r.Returned :=
  match r with
  | .ok _ => isTrue (by simp [Outcome.Returned])
  | .err _ => isTrue (by simp [Outcome.Returned])
  | .panic => isFalse (by simp [Outcome.Returned])

theorem except_bind_eq_ok {ε α β : Type} {x : Except ε α} {f : α → Except ε β} {b : β}
    (h : x >>= f = .ok b) : ∃ a, x = .ok a ∧ f a = .ok b := by
  cases x with
  | error e => cases h
  | ok a => exact ⟨a, rfl, h⟩

namespace Outcome

variable {ε α β : Type}

def bind : Outcome ε α → (α → Outcome ε β) → Outcome ε β
  | ok a, f => f a
  | err e, _ => err e
  | panic, _ => panic

instance : Monad (Outcome ε) where
  pure := ok
  bind := Outcome.bind

instance : LawfulMonad (Outcome ε) := LawfulMonad.mk' (Outcome ε)
  (fun x => by cases x <;> rfl) (fun _ _ => rfl) (fun x _ _ => by cases x <;> rfl)

def ofExcept : Except ε α → Outcome ε α
  | .ok a => ok a
  | .error e => err e

/-- Checked arithmetic under `overflow-checks`: no value means a panic. -/
def checked : Option α → Outcome ε α
  | some a => ok a
  | none => panic

theorem bind_eq_ok {x : Outcome ε α} {f : α → Outcome ε β} {b : β} :
    x >>= f = ok b ↔ ∃ a, x = ok a ∧ f a = ok b := by
  change Outcome.bind x f = ok b ↔ _
  cases x <;> simp [Outcome.bind]

@[simp] theorem pure_eq_ok {a b : α} : (pure a : Outcome ε α) = ok b ↔ a = b := by
  change ok a = ok b ↔ a = b
  simp

@[simp] theorem ofExcept_eq_ok {x : Except ε α} {a : α} : ofExcept x = ok a ↔ x = .ok a := by
  cases x <;> simp [ofExcept]

@[simp] theorem checked_eq_ok {o : Option α} {a : α} :
    (checked o : Outcome ε α) = ok a ↔ o = some a := by
  cases o <;> simp [checked]

theorem mapM_eq_ok {f : α → Outcome ε β} {xs : List α} {ys : List β} :
    xs.mapM f = ok ys ↔ xs.map f = ys.map ok := by
  induction xs generalizing ys with
  | nil => cases ys <;> simp
  | cons x xs ih =>
    rw [List.mapM_cons, bind_eq_ok]
    constructor
    · rintro ⟨y, hy, h⟩
      obtain ⟨zs, hzs, h⟩ := bind_eq_ok.mp h
      obtain rfl := pure_eq_ok.mp h
      rw [List.map_cons, List.map_cons, hy, ih.mp hzs]
    · intro h
      cases ys with
      | nil => simp at h
      | cons y ys =>
        simp only [List.map_cons, List.cons.injEq] at h
        exact ⟨y, h.1, bind_eq_ok.mpr ⟨ys, ih.mpr h.2, rfl⟩⟩

end Outcome

def Eff (σ ε α : Type) : Type := σ → Outcome ε α × σ

variable {σ ε α β : Type}

namespace Eff

def pure (a : α) : Eff σ ε α := fun s => (.ok a, s)

def bind (m : Eff σ ε α) (f : α → Eff σ ε β) : Eff σ ε β := fun s =>
  match m s with
  | (.ok a, t) => f a t
  | (.err e, t) => (.err e, t)
  | (.panic, t) => (.panic, t)

instance : Monad (Eff σ ε) where
  pure := Eff.pure
  bind := Eff.bind

def throw (e : ε) : Eff σ ε α := fun s => (.err e, s)
def panic : Eff σ ε α := fun s => (.panic, s)
def read (f : σ → α) : Eff σ ε α := fun s => (.ok (f s), s)
def modify (f : σ → σ) : Eff σ ε Unit := fun s => (.ok (), f s)

/-- Checked arithmetic under `overflow-checks`: no value means a panic. -/
def checked : Option α → Eff σ ε α
  | some a => Eff.pure a
  | none => Eff.panic

def ofExcept : Except ε α → Eff σ ε α
  | .ok a => Eff.pure a
  | .error e => Eff.throw e

def ofOutcome (r : Outcome ε α) : Eff σ ε α := fun s => (r, s)

/-- The conversion that `?` applies to an error on its way to the caller. -/
def mapErr {ε' : Type} (f : ε → ε') (m : Eff σ ε α) : Eff σ ε' α := fun s =>
  match m s with
  | (.ok a, t) => (.ok a, t)
  | (.err e, t) => (.err (f e), t)
  | (.panic, t) => (.panic, t)

/-- Run `m` and hand its `Result` to the caller; a panic keeps unwinding. -/
def attempt {ε' : Type} (m : Eff σ ε α) : Eff σ ε' (Except ε α) := fun s =>
  match m s with
  | (.ok a, t) => (.ok (.ok a), t)
  | (.err e, t) => (.ok (.error e), t)
  | (.panic, t) => (.panic, t)

end Eff

/-- A postcondition names what holds after each of the three outcomes. -/
structure Post (σ ε α : Type) where
  ok : α → σ → Prop
  err : ε → σ → Prop
  panic : σ → Prop

def wp (m : Eff σ ε α) (Q : Post σ ε α) (s : σ) : Prop :=
  match m s with
  | (.ok a, t) => Q.ok a t
  | (.err e, t) => Q.err e t
  | (.panic, t) => Q.panic t

def Post.ofOk (Q : Post σ ε β) (f : α → σ → Prop) : Post σ ε α := ⟨f, Q.err, Q.panic⟩

/-- A postcondition given as one relation between the outcome and the final state. -/
def Post.ofRel (R : Outcome ε α → σ → Prop) : Post σ ε α :=
  ⟨fun a => R (.ok a), fun e => R (.err e), R .panic⟩

theorem wp_ofRel {m : Eff σ ε α} {R : Outcome ε α → σ → Prop} {s : σ} :
    wp m (Post.ofRel R) s ↔ R (m s).1 (m s).2 := by
  unfold wp Post.ofRel
  rcases m s with ⟨r, t⟩
  cases r <;> rfl

@[simp] theorem wp_pure (a : α) (Q : Post σ ε α) (s : σ) :
    wp (Pure.pure a) Q s ↔ Q.ok a s := Iff.rfl

@[simp] theorem wp_throw (e : ε) (Q : Post σ ε α) (s : σ) :
    wp (Eff.throw e) Q s ↔ Q.err e s := Iff.rfl

@[simp] theorem wp_panic (Q : Post σ ε α) (s : σ) : wp Eff.panic Q s ↔ Q.panic s := Iff.rfl

@[simp] theorem wp_read (f : σ → α) (Q : Post σ ε α) (s : σ) :
    wp (Eff.read f) Q s ↔ Q.ok (f s) s := Iff.rfl

@[simp] theorem wp_modify (f : σ → σ) (Q : Post σ ε Unit) (s : σ) :
    wp (Eff.modify f) Q s ↔ Q.ok () (f s) := Iff.rfl

@[simp] theorem wp_bind (m : Eff σ ε α) (f : α → Eff σ ε β) (Q : Post σ ε β) (s : σ) :
    wp (m >>= f) Q s ↔ wp m (Q.ofOk fun a => wp (f a) Q) s := by
  change wp (Eff.bind m f) Q s ↔ _
  unfold wp Eff.bind
  rcases m s with ⟨r, t⟩
  cases r <;> rfl

@[simp] theorem wp_mapErr {ε' : Type} (f : ε → ε') (m : Eff σ ε α) (Q : Post σ ε' α) (s : σ) :
    wp (Eff.mapErr f m) Q s ↔ wp m ⟨Q.ok, fun e => Q.err (f e), Q.panic⟩ s := by
  unfold wp Eff.mapErr
  rcases m s with ⟨r, t⟩
  cases r <;> rfl

@[simp] theorem wp_attempt {ε' : Type} (m : Eff σ ε α) (Q : Post σ ε' (Except ε α)) (s : σ) :
    wp (Eff.attempt m) Q s ↔
      wp m ⟨fun a => Q.ok (.ok a), fun e => Q.ok (.error e), Q.panic⟩ s := by
  unfold wp Eff.attempt
  rcases m s with ⟨r, t⟩
  cases r <;> rfl

@[simp] theorem wp_checked (o : Option α) (Q : Post σ ε α) (s : σ) :
    wp (Eff.checked o) Q s ↔ (∀ a, o = some a → Q.ok a s) ∧ (o = none → Q.panic s) := by
  cases o <;> simp [Eff.checked, wp, Eff.panic, Eff.pure]

@[simp] theorem wp_ofExcept (x : Except ε α) (Q : Post σ ε α) (s : σ) :
    wp (Eff.ofExcept x) Q s ↔ (∀ a, x = .ok a → Q.ok a s) ∧ (∀ e, x = .error e → Q.err e s) := by
  cases x <;> simp [Eff.ofExcept, wp, Eff.throw, Eff.pure]

theorem wp_ofOutcome {r : Outcome ε α} {R : Outcome ε α → σ → Prop} {s : σ} :
    wp (Eff.ofOutcome r) (Post.ofRel R) s ↔ R r s := wp_ofRel

theorem wp_ite {c : Prop} [Decidable c] {m k : Eff σ ε α} {Q : Post σ ε α} {s : σ} :
    wp (if c then m else k) Q s ↔ (c → wp m Q s) ∧ (¬c → wp k Q s) := by
  by_cases h : c <;> simp [h]

theorem bind_run {m : Eff σ ε α} {k : α → Eff σ ε β} {s t : σ} {a : α} (h : m s = (.ok a, t)) :
    (m >>= k) s = k a t := by
  change Eff.bind m k s = k a t
  unfold Eff.bind
  rw [h]

theorem bind_panics {m : Eff σ ε α} {k : α → Eff σ ε β} {s : σ} (h : (m s).1 = .panic) :
    ((m >>= k) s).1 = .panic := by
  change (Eff.bind m k s).1 = .panic
  unfold Eff.bind
  split <;> simp_all

theorem bind_fails {m : Eff σ ε α} {k : α → Eff σ ε β} {s t : σ} {e : ε} (h : m s = (.err e, t)) :
    (m >>= k) s = (.err e, t) := by
  change Eff.bind m k s = (.err e, t)
  unfold Eff.bind
  rw [h]

theorem bind_run_congr {m n : Eff σ ε α} {k : α → Eff σ ε β} {s t : σ} (h : m s = n t) :
    (m >>= k) s = (n >>= k) t := by
  change Eff.bind m k s = Eff.bind n k t
  unfold Eff.bind
  rw [h]

theorem bind_assoc_run {γ : Type} {m : Eff σ ε α} {f : α → Eff σ ε β} {g : β → Eff σ ε γ} {s : σ} :
    ((m >>= f) >>= g) s = (m >>= fun a => f a >>= g) s := by
  change Eff.bind (Eff.bind m f) g s = Eff.bind m (fun a => Eff.bind (f a) g) s
  unfold Eff.bind
  rcases m s with ⟨r, t⟩
  cases r <;> rfl

theorem bind_congr_run {m : Eff σ ε α} {f g : α → Eff σ ε β} {s : σ}
    (h : ∀ a t, f a t = g a t) : (m >>= f) s = (m >>= g) s := by
  rw [show f = g from funext fun a => funext fun t => h a t]

theorem read_run (f : σ → α) (s : σ) : (Eff.read f : Eff σ ε α) s = (.ok (f s), s) := rfl

theorem checked_run {o : Option α} {a : α} (h : o = some a) (s : σ) :
    (Eff.checked o : Eff σ ε α) s = (.ok a, s) := by
  subst h
  rfl

theorem attempt_run {ε' : Type} {m : Eff σ ε α} {s t : σ} {a : α} (h : m s = (.ok a, t)) :
    (Eff.attempt m : Eff σ ε' (Except ε α)) s = (.ok (.ok a), t) := by
  unfold Eff.attempt
  rw [h]

theorem wp_mono {m : Eff σ ε α} {Q R : Post σ ε α} {s : σ} (h : wp m Q s)
    (hok : ∀ a t, Q.ok a t → R.ok a t) (herr : ∀ e t, Q.err e t → R.err e t)
    (hpanic : ∀ t, Q.panic t → R.panic t) : wp m R s := by
  unfold wp at *
  rcases hm : m s with ⟨r, t⟩
  rw [hm] at h
  cases r with
  | ok a => exact hok a t h
  | err e => exact herr e t h
  | panic => exact hpanic t h

/-- Partial correctness: a claim about the outcomes that return. -/
def Post.returns (f : α → σ → Prop) : Post σ ε α := ⟨f, fun _ _ => True, fun _ => True⟩

theorem returns_mono {m : Eff σ ε α} {f g : α → σ → Prop} {s : σ}
    (h : wp m (Post.returns f) s) (hfg : ∀ a t, f a t → g a t) : wp m (Post.returns g) s :=
  wp_mono h hfg (fun _ _ => id) fun _ => id

theorem returns_pure {a : α} {f : α → σ → Prop} {s : σ} (h : f a s) :
    wp (Pure.pure a : Eff σ ε α) (Post.returns f) s := (wp_pure _ _ _).mpr h

/-- Composition: the claim about the first part is what the second part starts from. -/
theorem returns_bind {m : Eff σ ε α} {k : α → Eff σ ε β} {f : α → σ → Prop} {g : β → σ → Prop}
    {s : σ} (hm : wp m (Post.returns f) s) (hk : ∀ a t, f a t → wp (k a) (Post.returns g) t) :
    wp (m >>= k) (Post.returns g) s :=
  (wp_bind _ _ _ _).mpr (wp_mono hm hk (fun _ _ => id) fun _ => id)

theorem returns_ite {c : Prop} [Decidable c] {m k : Eff σ ε α} {f : α → σ → Prop} {s : σ}
    (hm : c → wp m (Post.returns f) s) (hk : ¬c → wp k (Post.returns f) s) :
    wp (if c then m else k) (Post.returns f) s := wp_ite.mpr ⟨hm, hk⟩

theorem returns_modify {f : σ → σ} {g : Unit → σ → Prop} {s : σ} (h : g () (f s)) :
    wp (Eff.modify f : Eff σ ε Unit) (Post.returns g) s := (wp_modify _ _ _).mpr h

theorem wp_ok {m : Eff σ ε α} {Q : Post σ ε α} {s t : σ} {a : α} (h : wp m Q s)
    (hm : m s = (.ok a, t)) : Q.ok a t := by
  unfold wp at h
  rwa [hm] at h

-- Programs are taken apart by the rules above, never by running them symbolically.
attribute [irreducible] wp

end FallibleState
