import Mathlib.Logic.Relation
import RevenueOps.TaggedTrace

/-! Programs that call their environment and go on with its reply, as finite trees of calls.
A world says which reply a call may get in a state, and what else may happen between two calls. -/
namespace InteractiveProgram

inductive Prog (Op : Type) (Reply : Op → Type) (α : Type) where
  | ret (a : α)
  | call (op : Op) (next : Reply op → Prog Op Reply α)

variable {Op : Type} {Reply : Op → Type} {α β σ κ : Type}

namespace Prog

def bind : Prog Op Reply α → (α → Prog Op Reply β) → Prog Op Reply β
  | ret a, f => f a
  | call op next, f => call op fun r => (next r).bind f

instance : Monad (Prog Op Reply) where
  pure := ret
  bind := bind

def perform (op : Op) : Prog Op Reply (Reply op) := call op ret

@[simp] theorem pure_eq (a : α) : (pure a : Prog Op Reply α) = ret a := rfl

@[simp] theorem ret_bind (a : α) (f : α → Prog Op Reply β) : ret a >>= f = f a := rfl

@[simp] theorem perform_bind (op : Op) (f : Reply op → Prog Op Reply β) :
    perform op >>= f = call op f := rfl

@[simp] theorem call_bind (op : Op) (next : Reply op → Prog Op Reply α) (f : α → Prog Op Reply β) :
    call op next >>= f = call op fun r => next r >>= f := rfl

end Prog

structure Event (Op : Type) (Reply : Op → Type) where
  op : Op
  reply : Reply op

inductive Path : Prog Op Reply α → List (Event Op Reply) → Prog Op Reply α → Prop where
  | here (p : Prog Op Reply α) : Path p [] p
  | call {op : Op} {next : Reply op → Prog Op Reply α} (r : Reply op)
      {log : List (Event Op Reply)} {q : Prog Op Reply α} (h : Path (next r) log q) :
      Path (.call op next) (⟨op, r⟩ :: log) q

section Paths

variable {p q : Prog Op Reply α} {log : List (Event Op Reply)} {a : α}

theorem path_ret (h : Path (.ret a) log q) : log = [] ∧ q = .ret a := by
  cases h
  exact ⟨rfl, rfl⟩

theorem path_call {op : Op} {next : Reply op → Prog Op Reply α} (h : Path (.call op next) log q) :
    (log = [] ∧ q = .call op next) ∨
      ∃ r rest, log = ⟨op, r⟩ :: rest ∧ Path (next r) rest q := by
  cases h with
  | here => exact .inl ⟨rfl, rfl⟩
  | call r h => exact .inr ⟨r, _, rfl, h⟩

end Paths

namespace Prog

variable {bad gate : Op → Prop} {passes : Event Op Reply → Prop} {p q : Prog Op Reply α}
  {log : List (Event Op Reply)}

def Avoids (bad : Op → Prop) : Prog Op Reply α → Prop
  | ret _ => True
  | call op next => ¬ bad op ∧ ∀ r, (next r).Avoids bad

@[simp] theorem avoids_ret (a : α) : (ret a : Prog Op Reply α).Avoids bad := trivial

theorem avoids_perform {op : Op} (h : ¬ bad op) :
    (perform op : Prog Op Reply (Reply op)).Avoids bad := ⟨h, fun _ => trivial⟩

theorem Avoids.mono {worse : Op → Prop} (h : p.Avoids worse) (hbad : ∀ op, bad op → worse op) :
    p.Avoids bad := by
  induction p with
  | ret a => trivial
  | call op next ih => exact ⟨fun hop => h.1 (hbad op hop), fun r => ih r (h.2 r)⟩

theorem Avoids.bind {m : Prog Op Reply α} {f : α → Prog Op Reply β} (hm : m.Avoids bad)
    (hf : ∀ a, (f a).Avoids bad) : (m >>= f).Avoids bad := by
  induction m with
  | ret a => exact hf a
  | call op next ih => exact ⟨hm.1, fun r => ih r (hm.2 r)⟩

theorem Avoids.path (h : p.Avoids bad) (hp : Path p log q) : ∀ e ∈ log, ¬ bad e.op := by
  induction hp with
  | here => simp
  | call r _ ih =>
    intro e he
    rcases List.mem_cons.mp he with rfl | he
    · exact h.1
    · exact ih (h.2 r) e he

/-- No call of the bad kind before the gate, one gate at most, and none of the bad kind behind a
gate that does not pass. -/
def Gated (gate bad : Op → Prop) (passes : Event Op Reply → Prop) : Prog Op Reply α → Prop
  | ret _ => True
  | call op next => ¬ bad op ∧
      (gate op → ∀ r, (next r).Avoids gate ∧ (¬ passes ⟨op, r⟩ → (next r).Avoids bad)) ∧
      (¬ gate op → ∀ r, (next r).Gated gate bad passes)

theorem Gated.path (h : p.Gated gate bad passes) (hp : Path p log q) {e : Event Op Reply}
    (he : e ∈ log) (hgate : gate e.op) (hfail : ¬ passes e) : ∀ d ∈ log, ¬ bad d.op := by
  induction hp with
  | here => simp
  | @call op next r log q hp ih =>
    intro d hd
    rcases List.mem_cons.mp hd with rfl | hd
    · exact h.1
    · by_cases hop : gate op
      · obtain ⟨hgates, hbad⟩ := h.2.1 hop r
        rcases List.mem_cons.mp he with rfl | he
        · exact (hbad hfail).path hp d hd
        · exact absurd hgate (hgates.path hp e he)
      · rcases List.mem_cons.mp he with rfl | he
        · exact absurd hgate hop
        · exact ih (h.2.2 hop r) he d hd

/-- The log meets the invariant at each moment, and with the result it meets the postcondition. -/
def Logs (I : List (Event Op Reply) → Prop) (Q : α → List (Event Op Reply) → Prop) :
    Prog Op Reply α → List (Event Op Reply) → Prop
  | ret a, log => I log ∧ Q a log
  | call op next, log => I log ∧ ∀ r, (next r).Logs I Q (log ++ [⟨op, r⟩])

section Logs

variable {I : List (Event Op Reply) → Prop} {Q : α → List (Event Op Reply) → Prop}
  {old : List (Event Op Reply)}

theorem Logs.path (h : p.Logs I Q old) (hp : Path p log q) : q.Logs I Q (old ++ log) := by
  induction hp generalizing old with
  | here => rwa [List.append_nil]
  | call r _ ih =>
    have hq := ih (h.2 r)
    rwa [List.append_assoc, List.singleton_append] at hq

theorem Logs.holds (h : p.Logs I Q log) : I log := by
  cases p with
  | ret a => exact h.1
  | call op next => exact h.1

theorem Logs.bind {m : Prog Op Reply β} {f : β → Prog Op Reply α}
    (h : m.Logs I (fun b log => (f b).Logs I Q log) log) : (m >>= f).Logs I Q log := by
  induction m generalizing log with
  | ret b => exact h.2
  | call op next ih => exact ⟨h.1, fun r => ih r (h.2 r)⟩

theorem Logs.mono {J : List (Event Op Reply) → Prop} {R : α → List (Event Op Reply) → Prop}
    (h : p.Logs I Q log) (hI : ∀ log, I log → J log) (hQ : ∀ a log, I log → Q a log → R a log) :
    p.Logs J R log := by
  induction p generalizing log with
  | ret a => exact ⟨hI _ h.1, hQ a _ h.1 h.2⟩
  | call op next ih => exact ⟨hI _ h.1, fun r => ih r (h.2 r)⟩

/-- What the other calls leave alone stays through a program without the bad ones. -/
theorem Avoids.logs (h : p.Avoids bad) (hlog : I log)
    (hI : ∀ log e, ¬ bad e.op → I log → I (log ++ [e])) : p.Logs I (fun _ => I) log := by
  induction p generalizing log with
  | ret a => exact ⟨hlog, hlog⟩
  | call op next ih => exact ⟨hlog, fun r => ih r (h.2 r) (hI _ ⟨op, r⟩ h.1 hlog)⟩

end Logs

end Prog

/-- The replies a call may get, with the state it leaves, and what happens by itself. -/
structure World (Op : Type) (Reply : Op → Type) (σ : Type) where
  answers : (op : Op) → σ → Reply op → σ → Prop
  drifts : σ → σ → Prop

namespace World

variable (W : World Op Reply σ)

structure Moment (Op : Type) (Reply : Op → Type) (σ : Type) where
  state : σ
  event : Event Op Reply

inductive Run : Prog Op Reply α → σ → List (Moment Op Reply σ) → Prog Op Reply α → σ → Prop where
  | here (p : Prog Op Reply α) (s : σ) : Run p s [] p s
  | drift {p q : Prog Op Reply α} {s t u : σ} {log : List (Moment Op Reply σ)}
      (h : W.drifts s t) (rest : Run p t log q u) : Run p s log q u
  | answer {op : Op} {next : Reply op → Prog Op Reply α} {r : Reply op} {s t u : σ}
      {log : List (Moment Op Reply σ)} {q : Prog Op Reply α} (h : W.answers op s r t)
      (rest : Run (next r) t log q u) : Run (.call op next) s (⟨s, op, r⟩ :: log) q u

def Reaches (p : Prog Op Reply α) (s : σ) (q : Prog Op Reply α) (t : σ) : Prop :=
  ∃ log, W.Run p s log q t

def Stable (A : σ → Prop) : Prop := ∀ s t, A s → W.drifts s t → A t

/-- Along every run the invariant holds, and a result meets the postcondition. -/
def Safe (I : σ → Prop) (Q : α → σ → Prop) : Prog Op Reply α → σ → Prop
  | .ret a, s => ∀ t, Relation.ReflTransGen W.drifts s t → I t ∧ Q a t
  | .call op next, s => ∀ t, Relation.ReflTransGen W.drifts s t →
      I t ∧ ∀ r u, W.answers op t r u → Safe I Q (next r) u

variable {W} {I A B : σ → Prop} {Q : α → σ → Prop} {p q : Prog Op Reply α} {s t : σ}
  {log : List (Moment Op Reply σ)}

theorem Run.path (h : W.Run p s log q t) : Path p (log.map Moment.event) q := by
  induction h with
  | here => exact .here _
  | drift _ _ ih => exact ih
  | answer _ _ ih => exact .call _ ih

/-- The first call of a run: what happened by itself before it, its answer, and the rest. -/
theorem Run.first {op : Op} {next : Reply op → Prog Op Reply α} {m : Moment Op Reply σ}
    (h : W.Run (.call op next) s (m :: log) q t) : ∃ u r v, Relation.ReflTransGen W.drifts s u ∧
      m = ⟨u, op, r⟩ ∧ W.answers op u r v ∧ W.Run (next r) v log q t := by
  generalize hp : Prog.call op next = p at h
  generalize hlog : m :: log = moments at h
  induction h with
  | here => cases hlog
  | drift hstep _ ih =>
    obtain ⟨u, r, v, hstar, hm⟩ := ih hp hlog
    exact ⟨u, r, v, .head hstep hstar, hm⟩
  | answer hanswer hrest _ =>
    cases hp
    cases hlog
    exact ⟨_, _, _, .refl, rfl, hanswer, hrest⟩

theorem Stable.star (hA : W.Stable A) (h : A s) (hst : Relation.ReflTransGen W.drifts s t) :
    A t := by
  induction hst with
  | refl => exact h
  | tail _ hstep ih => exact hA _ _ ih hstep

theorem Stable.and (hA : W.Stable A) (hB : W.Stable B) : W.Stable fun s => A s ∧ B s :=
  fun s t h hst => ⟨hA s t h.1 hst, hB s t h.2 hst⟩

namespace Safe

theorem star (h : W.Safe I Q p s) (hst : Relation.ReflTransGen W.drifts s t) :
    W.Safe I Q p t := by
  cases p with
  | ret a => exact fun u htu => h u (hst.trans htu)
  | call op next => exact fun u htu => h u (hst.trans htu)

theorem holds (h : W.Safe I Q p s) : I s := by
  cases p with
  | ret a => exact (h s .refl).1
  | call op next => exact (h s .refl).1

theorem result {a : α} (h : W.Safe I Q (.ret a) s) : Q a s := (h s .refl).2

theorem run (h : W.Safe I Q p s) (hrun : W.Run p s log q t) : W.Safe I Q q t := by
  induction hrun with
  | here => exact h
  | drift hdrift _ ih => exact ih (h.star (.single hdrift))
  | answer hanswer _ ih => exact ih ((h _ .refl).2 _ _ hanswer)

theorem ret {a : α} (hA : W.Stable A) (hs : A s) (hI : ∀ t, A t → I t)
    (hQ : ∀ t, A t → Q a t) : W.Safe I Q (.ret a) s := by
  intro t hst
  have ht := hA.star hs hst
  exact ⟨hI t ht, hQ t ht⟩

/-- The rule of a call: the assertion survives what happens by itself, and each reply in a state
that meets it leads on safely. -/
theorem call {op : Op} {next : Reply op → Prog Op Reply α} (hA : W.Stable A) (hs : A s)
    (hI : ∀ t, A t → I t)
    (hnext : ∀ t r u, A t → W.answers op t r u → W.Safe I Q (next r) u) :
    W.Safe I Q (.call op next) s := by
  intro t hst
  have ht := hA.star hs hst
  exact ⟨hI t ht, fun r u hr => hnext t r u ht hr⟩

theorem mono {Q' : α → σ → Prop} (h : W.Safe I Q p s)
    (hQ : ∀ a t, I t → Q a t → Q' a t) : W.Safe I Q' p s := by
  induction p generalizing s with
  | ret a =>
    intro t hst
    have ht := h t hst
    exact ⟨ht.1, hQ a t ht.1 ht.2⟩
  | call op next ih =>
    intro t hst
    have ht := h t hst
    exact ⟨ht.1, fun r u hr => ih r (ht.2 r u hr)⟩

theorem bind {m : Prog Op Reply β} {f : β → Prog Op Reply α}
    (h : W.Safe I (fun b t => W.Safe I Q (f b) t) m s) : W.Safe I Q (m >>= f) s := by
  induction m generalizing s with
  | ret b => exact h.result
  | call op next ih =>
    intro t hst
    have ht := h t hst
    exact ⟨ht.1, fun r u hr => ih r (ht.2 r u hr)⟩

end Safe

/-- Every call is answered in every state, so a program runs to its end. -/
theorem exists_result (htotal : ∀ op s, ∃ r t, W.answers op s r t) (p : Prog Op Reply α) (s : σ) :
    ∃ a log t, W.Run p s log (.ret a) t := by
  induction p generalizing s with
  | ret a => exact ⟨a, [], s, .here _ _⟩
  | call op next ih =>
    obtain ⟨r, t, hr⟩ := htotal op s
    obtain ⟨a, log, u, hrun⟩ := ih r t
    exact ⟨a, _, u, .answer hr hrun⟩

section Simulation

def simulate (answer : (op : Op) → σ → Option (Reply op × σ)) :
    Prog Op Reply α → σ → Option (α × σ)
  | .ret a, s => some (a, s)
  | .call op next, s => (answer op s).bind fun reply => simulate answer (next reply.1) reply.2

theorem run_of_simulate {answer : (op : Op) → σ → Option (Reply op × σ)} {a : α}
    (hanswer : ∀ op s r t, answer op s = some (r, t) → W.answers op s r t)
    (h : simulate answer p s = some (a, t)) : ∃ log, W.Run p s log (.ret a) t := by
  induction p generalizing s with
  | ret b =>
    obtain ⟨rfl, rfl⟩ := Prod.mk.inj (Option.some.inj h)
    exact ⟨[], .here _ _⟩
  | call op next ih =>
    obtain ⟨reply, hreply, hnext⟩ := Option.bind_eq_some_iff.mp h
    obtain ⟨log, hrun⟩ := ih reply.1 hnext
    exact ⟨_, .answer (hanswer op s reply.1 reply.2 hreply) hrun⟩

end Simulation

section Pool

variable [DecidableEq κ]

variable (W) in
inductive PoolRun : (κ → Prog Op Reply α) → σ → List (κ × Moment Op Reply σ) →
    (κ → Prog Op Reply α) → σ → Prop where
  | here (ps : κ → Prog Op Reply α) (s : σ) : PoolRun ps s [] ps s
  | drift {ps qs : κ → Prog Op Reply α} {s t u : σ} {log : List (κ × Moment Op Reply σ)}
      (h : W.drifts s t) (rest : PoolRun ps t log qs u) : PoolRun ps s log qs u
  | answer {ps qs : κ → Prog Op Reply α} (i : κ) {op : Op} {next : Reply op → Prog Op Reply α}
      {r : Reply op} {s t u : σ} {log : List (κ × Moment Op Reply σ)} (hi : ps i = .call op next)
      (h : W.answers op s r t) (rest : PoolRun (Function.update ps i (next r)) t log qs u) :
      PoolRun ps s ((i, ⟨s, op, r⟩) :: log) qs u

variable {ps qs : κ → Prog Op Reply α} {log : List (κ × Moment Op Reply σ)}

theorem PoolRun.path (h : W.PoolRun ps s log qs t) (i : κ) :
    Path (ps i) ((TaggedTrace.project i log).map Moment.event) (qs i) := by
  induction h with
  | here => exact .here _
  | drift _ _ ih => exact ih
  | @answer ps qs j op next r s t u log hj _ _ ih =>
    by_cases hij : j = i
    · subst hij
      rw [Function.update_self] at ih
      rw [TaggedTrace.project_cons_self, hj]
      exact .call r ih
    · rw [Function.update_of_ne (Ne.symm hij)] at ih
      rw [TaggedTrace.project_cons_of_ne hij]
      exact ih

theorem PoolRun.keeps (hdrift : W.Stable A)
    (hanswer : ∀ op s r t, A s → W.answers op s r t → A t) (h : W.PoolRun ps s log qs t)
    (hs : A s) : ∀ m ∈ log, A m.2.state := by
  induction h with
  | here => simp
  | drift hstep _ ih => exact ih (hdrift _ _ hs hstep)
  | answer i hi hr _ ih =>
    intro m hm
    rcases List.mem_cons.mp hm with rfl | hm
    · exact hs
    · exact ih (hanswer _ _ _ _ hs hr) m hm

/-- A step of the run: its call was answered in its state, and the run goes on from there. -/
theorem PoolRun.split {before after : List (κ × Moment Op Reply σ)} {i : κ}
    {m : Moment Op Reply σ} (h : W.PoolRun ps s (before ++ (i, m) :: after) qs t) :
    ∃ u ms, W.answers m.event.op m.state m.event.reply u ∧ W.PoolRun ms u after qs t := by
  generalize hlog : before ++ (i, m) :: after = log at h
  induction h generalizing before with
  | here => simp at hlog
  | drift _ _ ih => exact ih hlog
  | answer j hj hr hrest ih =>
    cases before with
    | nil =>
      simp only [List.nil_append, List.cons.injEq] at hlog
      obtain ⟨hfirst, rfl⟩ := hlog
      cases hfirst
      exact ⟨_, _, hr, hrest⟩
    | cons d before =>
      rw [List.cons_append, List.cons.injEq] at hlog
      exact ih hlog.2

end Pool

end World

end InteractiveProgram
