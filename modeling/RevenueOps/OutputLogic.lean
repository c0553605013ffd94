import RevenueOps.FallibleState

/-! What a computation appends to an output that its state keeps, whatever its outcome. Every
entry is of one kind. -/
namespace OutputLogic

open FallibleState

variable {σ ε α β γ : Type} (view : σ → List β) (kind : β → Prop)

def Adds (m : Eff σ ε α) (P : Outcome ε α → List β → Prop) : Prop :=
  ∀ s, wp m (Post.ofRel fun r t =>
    ∃ new, view t = view s ++ new ∧ (∀ entry ∈ new, kind entry) ∧ P r new) s

def Quiet (m : Eff σ ε α) : Prop := Adds view kind m fun _ new => new = []

def Returning (P : α → List β → Prop) : Outcome ε α → List β → Prop
  | .ok a, new => P a new
  | _, _ => True

variable {view} {kind} {m : Eff σ ε α} {k : α → Eff σ ε γ} {P Q : Outcome ε α → List β → Prop}
  {R : Outcome ε γ → List β → Prop}

theorem Adds.run (h : Adds view kind m P) (s : σ) :
    ∃ new, view (m s).2 = view s ++ new ∧ (∀ entry ∈ new, kind entry) ∧ P (m s).1 new :=
  wp_ofRel.mp (h s)

theorem Adds.widen {other : β → Prop} (h : Adds view kind m P) (hkind : ∀ b, kind b → other b)
    (hPQ : ∀ r new, (∀ entry ∈ new, kind entry) → P r new → Q r new) : Adds view other m Q := by
  have hstep : ∀ {s t r}, (∃ new, view t = view s ++ new ∧ (∀ entry ∈ new, kind entry) ∧ P r new) →
      ∃ new, view t = view s ++ new ∧ (∀ entry ∈ new, other entry) ∧ Q r new := by
    rintro s t r ⟨new, ht, hnew, hr⟩
    exact ⟨new, ht, fun entry he => hkind entry (hnew entry he), hPQ _ _ hnew hr⟩
  intro s
  exact wp_mono (h s) (fun _ _ => hstep) (fun _ _ => hstep) fun _ => hstep

theorem Adds.mono (h : Adds view kind m P) (hPQ : ∀ r new, P r new → Q r new) :
    Adds view kind m Q := h.widen (fun _ => id) fun r new _ => hPQ r new

theorem Adds.pure {a : α} (h : P (.ok a) []) : Adds view kind (Pure.pure a : Eff σ ε α) P :=
  fun s => (wp_pure _ _ _).mpr ⟨[], by simp, by simp, h⟩

theorem Adds.bind (hm : Adds view kind m P)
    (hk : ∀ a new, P (.ok a) new → Adds view kind (k a) fun r more => R r (new ++ more))
    (herr : ∀ e new, P (.err e) new → R (.err e) new)
    (hpanic : ∀ new, P .panic new → R .panic new) : Adds view kind (m >>= k) R := by
  intro s
  refine (wp_bind _ _ _ _).mpr (wp_mono (hm s) ?_ ?_ ?_)
  · rintro a t ⟨new, ht, hnew, ha⟩
    have hstep : ∀ {r u}, (∃ more, view u = view t ++ more ∧ (∀ entry ∈ more, kind entry) ∧
        R r (new ++ more)) → ∃ all, view u = view s ++ all ∧
          (∀ entry ∈ all, kind entry) ∧ R r all := by
      rintro r u ⟨more, hu, hmore, hr⟩
      refine ⟨new ++ more, ?_, List.forall_mem_append.mpr ⟨hnew, hmore⟩, hr⟩
      rw [hu, ht, List.append_assoc]
    exact wp_mono (hk a new ha t) (fun _ _ => hstep) (fun _ _ => hstep) fun _ => hstep
  · rintro e t ⟨new, ht, hnew, he⟩
    exact ⟨new, ht, hnew, herr e new he⟩
  · rintro t ⟨new, ht, hnew, hp⟩
    exact ⟨new, ht, hnew, hpanic new hp⟩

/-- The rule for runs that return; the others may add anything. -/
theorem Adds.bindReturning {S : α → List β → Prop} {T : γ → List β → Prop}
    (hm : Adds view kind m (Returning S))
    (hk : ∀ a new, S a new → Adds view kind (k a) (Returning fun c more => T c (new ++ more))) :
    Adds view kind (m >>= k) (Returning T) := by
  refine hm.bind (fun a new ha => (hk a new ha).mono ?_) (fun _ _ _ => trivial) fun _ _ => trivial
  intro r more hr
  cases r with
  | ok c => exact hr
  | err e => trivial
  | panic => trivial

theorem Adds.afterQuiet {T : γ → List β → Prop} (hm : Quiet view kind m)
    (hk : ∀ a, Adds view kind (k a) (Returning T)) : Adds view kind (m >>= k) (Returning T) := by
  refine Adds.bind hm (fun a new hnew => ?_) (fun _ _ _ => trivial) fun _ _ => trivial
  subst hnew
  simpa using hk a

theorem Adds.ite {c : Prop} [Decidable c] {n : Eff σ ε α} (hm : c → Adds view kind m P)
    (hn : ¬c → Adds view kind n P) : Adds view kind (if c then m else n) P :=
  fun s => wp_ite.mpr ⟨fun hc => hm hc s, fun hc => hn hc s⟩

theorem Quiet.adds {S : α → List β → Prop} (h : Quiet view kind m) (hS : ∀ a, S a []) :
    Adds view kind m (Returning S) := by
  refine Adds.mono h ?_
  rintro r new rfl
  cases r with
  | ok a => exact hS a
  | err e => trivial
  | panic => trivial

theorem Quiet.pure (a : α) : Quiet view kind (Pure.pure a : Eff σ ε α) := Adds.pure rfl

theorem Quiet.bind (hm : Quiet view kind m) (hk : ∀ a, Quiet view kind (k a)) :
    Quiet view kind (m >>= k) := by
  refine Adds.bind hm (fun a new hnew => ?_) (fun _ _ => id) fun _ => id
  subst hnew
  exact hk a

theorem Quiet.ite {c : Prop} [Decidable c] {n : Eff σ ε α} (hm : c → Quiet view kind m)
    (hn : ¬c → Quiet view kind n) : Quiet view kind (if c then m else n) := Adds.ite hm hn

theorem Quiet.checked (o : Option α) : Quiet view kind (Eff.checked o : Eff σ ε α) :=
  fun s => (wp_checked _ _ _).mpr ⟨fun _ _ => ⟨[], by simp, by simp, rfl⟩,
    fun _ => ⟨[], by simp, by simp, rfl⟩⟩

theorem Quiet.read (f : σ → α) : Quiet view kind (Eff.read f : Eff σ ε α) :=
  fun s => (wp_read _ _ _).mpr ⟨[], by simp, by simp, rfl⟩

theorem Quiet.modify {f : σ → σ} (h : ∀ s, view (f s) = view s) :
    Quiet view kind (Eff.modify f : Eff σ ε Unit) :=
  fun s => (wp_modify _ _ _).mpr ⟨[], by simp [h s], by simp, rfl⟩

theorem Adds.after_checked {o : Option α} {T : γ → List β → Prop}
    (hk : ∀ a, o = some a → Adds view kind (k a) (Returning T)) :
    Adds view kind (Eff.checked o >>= k) (Returning T) := by
  intro s
  refine (wp_bind _ _ _ _).mpr ((wp_checked _ _ _).mpr ⟨fun a ha => hk a ha s, fun _ => ?_⟩)
  exact ⟨[], by simp, by simp, trivial⟩

end OutputLogic
