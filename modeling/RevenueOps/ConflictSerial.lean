import Mathlib.Data.List.Basic
import Mathlib.Logic.Function.Basic

/-! Requests that read and write the cells of one store, a step at a time and interleaved.
A run in which no step conflicts with what an unanswered request has touched is serial:
its store and its answers are those of the requests run one by one, as they were answered. -/
namespace ConflictSerial

variable {κ : Type} {β : κ → Type} {ρ ι : Type}

abbrev Store (β : κ → Type) := ∀ k, β k

/-- What is left of a request. A read and an update see one cell, the update in one go with
its change; a store replaces several cells in one transaction without looking at them. -/
inductive Prog (β : κ → Type) (ρ : Type) where
  | done (answer : ρ)
  | read (k : κ) (next : β k → Prog β ρ)
  | update (k : κ) (f : β k → β k) (next : β k → Prog β ρ)
  | store (writes : List ((k : κ) × β k)) (next : Prog β ρ)

namespace Prog

def touched : Prog β ρ → List κ
  | done _ => []
  | read k _ => [k]
  | update k _ _ => [k]
  | store writes _ => writes.map Sigma.fst

def written : Prog β ρ → List κ
  | done _ => []
  | read _ _ => []
  | update k _ _ => [k]
  | store writes _ => writes.map Sigma.fst

def rest : Prog β ρ → Store β → Prog β ρ
  | done a, _ => done a
  | read k next, s => next (s k)
  | update k _ next, s => next (s k)
  | store _ next, _ => next

theorem written_subset_touched {k : κ} (p : Prog β ρ) (h : k ∈ p.written) : k ∈ p.touched := by
  cases p with
  | done a => exact h
  | read k next => simp [written] at h
  | update k f next => exact h
  | store writes next => exact h

theorem rest_congr (p : Prog β ρ) {s t : Store β} (hst : ∀ l ∈ p.touched, s l = t l) :
    p.rest s = p.rest t := by
  cases p with
  | done a => rfl
  | read l next => simp only [rest]; rw [hst l (by simp [touched])]
  | update l f next => simp only [rest]; rw [hst l (by simp [touched])]
  | store writes next => rfl

end Prog

variable [DecidableEq κ]

/-- The transaction of a store step: the last write of a cell stands. -/
def replaceAll (writes : List ((k : κ) × β k)) (s : Store β) : Store β :=
  writes.foldl (fun s w => Function.update s w.1 w.2) s

theorem replaceAll_of_notMem {k : κ} (writes : List ((k : κ) × β k)) (s : Store β)
    (h : k ∉ writes.map Sigma.fst) : replaceAll writes s k = s k := by
  induction writes generalizing s with
  | nil => rfl
  | cons w ws ih =>
    rw [List.map_cons, List.mem_cons, not_or] at h
    have hw : replaceAll (w :: ws) s k = replaceAll ws (Function.update s w.1 w.2) k := rfl
    rw [hw, ih _ h.2, Function.update_of_ne h.1]

theorem replaceAll_of_mem {k : κ} (writes : List ((k : κ) × β k)) (s t : Store β)
    (h : k ∈ writes.map Sigma.fst) : replaceAll writes s k = replaceAll writes t k := by
  induction writes generalizing s t with
  | nil => simp at h
  | cons w ws ih =>
    have hs : ∀ s, replaceAll (w :: ws) s k = replaceAll ws (Function.update s w.1 w.2) k :=
      fun _ => rfl
    rw [hs, hs]
    by_cases hk : k ∈ ws.map Sigma.fst
    · exact ih _ _ hk
    · have hkw : k = w.1 := by
        rw [List.map_cons, List.mem_cons] at h
        exact h.resolve_right hk
      rw [replaceAll_of_notMem ws _ hk, replaceAll_of_notMem ws _ hk]
      subst hkw
      rw [Function.update_self, Function.update_self]

namespace Prog

def act : Prog β ρ → Store β → Store β
  | done _, s => s
  | read _ _, s => s
  | update k f _, s => Function.update s k (f (s k))
  | store writes _, s => replaceAll writes s

def run : Prog β ρ → Store β → ρ × Store β
  | done a, s => (a, s)
  | read k next, s => (next (s k)).run s
  | update k f next, s => (next (s k)).run (Function.update s k (f (s k)))
  | store writes next, s => next.run (replaceAll writes s)

theorem run_rest (p : Prog β ρ) (s : Store β) : p.run s = (p.rest s).run (p.act s) := by
  cases p <;> rfl

theorem act_of_notMem {k : κ} (p : Prog β ρ) (s : Store β) (h : k ∉ p.written) :
    p.act s k = s k := by
  cases p with
  | done a => rfl
  | read l next => rfl
  | update l f next =>
    have hkl : k ≠ l := by simpa [written] using h
    exact Function.update_of_ne hkl _ _
  | store writes next => exact replaceAll_of_notMem writes s h

theorem act_congr {k : κ} (p : Prog β ρ) {s t : Store β}
    (hst : ∀ l ∈ p.touched, s l = t l) (h : k ∈ p.written) : p.act s k = p.act t k := by
  cases p with
  | done a => simp [written] at h
  | read l next => simp [written] at h
  | update l f next =>
    have hkl : k = l := by simpa [written] using h
    have hl := hst l (by simp [touched])
    subst hkl
    simp only [act, Function.update_self]
    rw [hl]
  | store writes next => exact replaceAll_of_mem writes s t h

theorem act_agrees {p : Prog β ρ} {s t : Store β} {k : κ}
    (hst : ∀ l ∈ p.touched, s l = t l) (h : s k = t k) : p.act s k = p.act t k := by
  by_cases hk : k ∈ p.written
  · exact act_congr p hst hk
  · rw [act_of_notMem p s hk, act_of_notMem p t hk, h]

end Prog

/-- A request begun on the store base that has reached p, with the cells it has touched and
written, and the store t it would have made of base by itself so far. -/
inductive Replays (base : Store β) (origin : Prog β ρ) :
    List κ → List κ → Store β → Prog β ρ → Prop where
  | start : Replays base origin [] [] base origin
  | step {T W : List κ} {t : Store β} {p : Prog β ρ} (h : Replays base origin T W t p) :
      Replays base origin (p.touched ++ T) (p.written ++ W) (p.act t) (p.rest t)

namespace Replays

variable {base base' t : Store β} {origin p : Prog β ρ} {T W : List κ}

theorem written_subset (h : Replays base origin T W t p) : ∀ k ∈ W, k ∈ T := by
  induction h with
  | start => simp
  | @step T W t p _ ih =>
    intro k hk
    rcases List.mem_append.mp hk with hk | hk
    · exact List.mem_append_left _ (p.written_subset_touched hk)
    · exact List.mem_append_right _ (ih k hk)

theorem unwritten (h : Replays base origin T W t p) : ∀ k ∉ W, t k = base k := by
  induction h with
  | start => simp
  | @step T W t p _ ih =>
    intro k hk
    rw [List.mem_append, not_or] at hk
    rw [p.act_of_notMem t hk.1, ih k hk.2]

theorem run_eq (h : Replays base origin T W t p) : origin.run base = p.run t := by
  induction h with
  | start => rfl
  | @step T W t p _ ih => rw [ih, p.run_rest]

theorem transport (h : Replays base origin T W t p) (hb : ∀ k ∈ T, base k = base' k) :
    ∃ t', Replays base' origin T W t' p ∧ ∀ k ∈ T, t k = t' k := by
  induction h with
  | start => exact ⟨base', .start, by simp⟩
  | @step T W t p hp ih =>
    obtain ⟨t', ht', hagree⟩ := ih fun k hk => hb k (List.mem_append_right _ hk)
    have hbase : ∀ k ∉ T, base k = base' k → t k = t' k := by
      intro k hk hkb
      rw [hp.unwritten k fun hw => hk (hp.written_subset k hw),
        ht'.unwritten k fun hw => hk (ht'.written_subset k hw), hkb]
    have hall : ∀ k ∈ p.touched ++ T, t k = t' k := by
      intro k hk
      by_cases hkT : k ∈ T
      · exact hagree k hkT
      · exact hbase k hkT (hb k hk)
    have htouch : ∀ k ∈ p.touched, t k = t' k := fun k hk =>
      hall k (List.mem_append_left _ hk)
    have hstep := ht'.step
    rw [← p.rest_congr htouch] at hstep
    exact ⟨p.act t', hstep, fun k hk => Prog.act_agrees htouch (hall k hk)⟩

end Replays

/-- A request under way: what it was asked, what is left of it, and what it has used. -/
structure Flight (β : κ → Type) (ρ ι : Type) where
  request : ι
  rest : Prog β ρ
  touched : List κ
  written : List κ

structure State (β : κ → Type) (ρ ι : Type) where
  store : Store β
  flights : ℕ → Option (Flight β ρ ι)
  answered : List (ι × ρ)

inductive Event (ι : Type) where
  | start (n : ℕ) (request : ι)
  | advance (n : ℕ)
  | answer (n : ℕ)

def initial (s : Store β) : State β ρ ι := ⟨s, fun _ => none, []⟩

def next (code : ι → Prog β ρ) (m : State β ρ ι) : Event ι → State β ρ ι
  | .start n request =>
    match m.flights n with
    | some _ => m
    | none =>
      { m with flights := Function.update m.flights n (some ⟨request, code request, [], []⟩) }
  | .advance n =>
    match m.flights n with
    | none => m
    | some f =>
      { m with
        store := f.rest.act m.store
        flights := Function.update m.flights n (some
          ⟨f.request, f.rest.rest m.store, f.rest.touched ++ f.touched,
            f.rest.written ++ f.written⟩) }
  | .answer n =>
    match m.flights n with
    | some ⟨request, .done a, _, _⟩ =>
      { m with
        flights := Function.update m.flights n none
        answered := m.answered ++ [(request, a)] }
    | _ => m

def exec (code : ι → Prog β ρ) (m : State β ρ ι) (es : List (Event ι)) : State β ρ ι :=
  es.foldl (next code) m

/-- The step touches no cell that another request under way has written, and writes none
that such a request has touched. -/
def Quiet (m : State β ρ ι) : Event ι → Prop
  | .advance n => ∀ f, m.flights n = some f → ∀ j g, j ≠ n → m.flights j = some g →
      (∀ k ∈ f.rest.touched, k ∉ g.written) ∧ ∀ k ∈ f.rest.written, k ∉ g.touched
  | _ => True

def ConflictFree (code : ι → Prog β ρ) : State β ρ ι → List (Event ι) → Prop
  | _, [] => True
  | m, e :: es => Quiet m e ∧ ConflictFree code (next code m e) es

def Settled (m : State β ρ ι) : Prop := ∀ n, m.flights n = none

def serial (code : ι → Prog β ρ) (s : Store β) : List ι → List (ι × ρ) × Store β
  | [] => ([], s)
  | r :: rs =>
    let out := serial code ((code r).run s).2 rs
    ((r, ((code r).run s).1) :: out.1, out.2)

theorem serial_append (code : ι → Prog β ρ) (s : Store β) (rs qs : List ι) :
    serial code s (rs ++ qs) =
      ((serial code s rs).1 ++ (serial code (serial code s rs).2 qs).1,
        (serial code (serial code s rs).2 qs).2) := by
  induction rs generalizing s with
  | nil => rfl
  | cons r rs ih => simp only [List.cons_append, serial, ih]

/-- Where a serial run answers a request, it runs it on what the requests before leave. -/
theorem serial_split {code : ι → Prog β ρ} {s : Store β} {pre post : List (ι × ρ)} {r : ι} {a : ρ}
    (h : (serial code s ((pre ++ (r, a) :: post).map Prod.fst)).1 = pre ++ (r, a) :: post) :
    ((code r).run (serial code s (pre.map Prod.fst)).2).1 = a ∧
      (serial code ((code r).run (serial code s (pre.map Prod.fst)).2).2 (post.map Prod.fst)).1 =
        post := by
  rw [List.map_append, serial_append] at h
  have hlen : ∀ (rs : List ι) (s : Store β), (serial code s rs).1.length = rs.length := by
    intro rs
    induction rs with
    | nil => intro s; rfl
    | cons q qs ih => intro s; simp only [serial, List.length_cons, ih]
  obtain ⟨-, hcons⟩ := List.append_inj h (by rw [hlen, List.length_map])
  simp only [List.map_cons, serial, List.cons.injEq, Prod.mk.injEq, true_and] at hcons
  exact hcons

/-- The answered requests are a serial run; each flight is a replay from where it ends. -/
structure Invariant (code : ι → Prog β ρ) (s : Store β) (m : State β ρ ι) : Prop where
  answers : (serial code s (m.answered.map Prod.fst)).1 = m.answered
  replays : ∀ n f, m.flights n = some f → ∃ t,
    Replays (serial code s (m.answered.map Prod.fst)).2 (code f.request) f.touched f.written t
      f.rest ∧ ∀ k ∈ f.touched, m.store k = t k
  apart : ∀ n j f g, n ≠ j → m.flights n = some f → m.flights j = some g →
    ∀ k ∈ f.written, k ∉ g.touched
  rest : ∀ k, (∀ n f, m.flights n = some f → k ∉ f.written) →
    m.store k = (serial code s (m.answered.map Prod.fst)).2 k

theorem initial_invariant (code : ι → Prog β ρ) (s : Store β) :
    Invariant code s (initial s : State β ρ ι) := by
  constructor
  · rfl
  · intro n f hf; simp [initial] at hf
  · intro n j f g _ hf; simp [initial] at hf
  · intro k _; rfl

omit [DecidableEq κ] in
theorem flight_update {fs : ℕ → Option (Flight β ρ ι)} {n j : ℕ} {o f : Flight β ρ ι}
    (h : Function.update fs n (some o) j = some f) :
    (j = n ∧ f = o) ∨ (j ≠ n ∧ fs j = some f) := by
  by_cases hj : j = n
  · subst hj
    rw [Function.update_self] at h
    exact .inl ⟨rfl, (Option.some.inj h).symm⟩
  · rw [Function.update_of_ne hj] at h
    exact .inr ⟨hj, h⟩

theorem start_invariant {code : ι → Prog β ρ} {s : Store β} {m : State β ρ ι} (n : ℕ) (r : ι)
    (h : Invariant code s m) : Invariant code s (next code m (.start n r)) := by
  cases hn : m.flights n with
  | some f => simpa only [next, hn] using h
  | none =>
    simp only [next, hn]
    constructor
    · exact h.answers
    · intro j f hf
      rcases flight_update hf with ⟨-, rfl⟩ | ⟨-, hf⟩
      · exact ⟨_, .start, by simp⟩
      · exact h.replays j f hf
    · intro j l f g hjl hf hg
      rcases flight_update hf with ⟨-, rfl⟩ | ⟨-, hf⟩
      · simp
      · rcases flight_update hg with ⟨-, rfl⟩ | ⟨-, hg⟩
        · simp
        · exact h.apart j l f g hjl hf hg
    · intro k hk
      apply h.rest k
      intro j f hf
      have hj : j ≠ n := by rintro rfl; rw [hn] at hf; cases hf
      exact hk j f ((Function.update_of_ne hj _ _).trans hf)

theorem advance_invariant {code : ι → Prog β ρ} {s : Store β} {m : State β ρ ι} (n : ℕ)
    (hq : Quiet m (.advance n)) (h : Invariant code s m) :
    Invariant code s (next code m (.advance n)) := by
  cases hn : m.flights n with
  | none => simpa only [next, hn] using h
  | some f =>
    obtain ⟨t, ht, hagree⟩ := h.replays n f hn
    have hclear := hq f hn
    -- what the step looks at is as the replay has it
    have hseen : ∀ k ∈ f.rest.touched, m.store k = t k := by
      intro k hk
      by_cases hkT : k ∈ f.touched
      · exact hagree k hkT
      · rw [ht.unwritten k fun hw => hkT (ht.written_subset k hw)]
        apply h.rest k
        intro j g hg
        by_cases hj : j = n
        · subst hj
          rw [hn] at hg
          cases hg
          exact fun hw => hkT (ht.written_subset k hw)
        · exact (hclear j g hj hg).1 k hk
    simp only [next, hn]
    constructor
    · exact h.answers
    · intro j g hg
      rcases flight_update hg with ⟨-, rfl⟩ | ⟨hj, hg⟩
      · refine ⟨f.rest.act t, ?_, ?_⟩
        · rw [f.rest.rest_congr hseen]
          exact ht.step
        · intro k hk
          apply Prog.act_agrees hseen
          rcases List.mem_append.mp hk with hk | hk
          · exact hseen k hk
          · exact hagree k hk
      · obtain ⟨u, hu, hug⟩ := h.replays j g hg
        refine ⟨u, hu, fun k hk => ?_⟩
        rw [← hug k hk]
        exact f.rest.act_of_notMem m.store fun hw => (hclear j g hj hg).2 k hw hk
    · intro j l g g' hjl hg hg'
      rcases flight_update hg with ⟨rfl, rfl⟩ | ⟨hj, hgm⟩
      · rcases flight_update hg' with ⟨rfl, -⟩ | ⟨hl, hg'⟩
        · exact absurd rfl hjl
        · intro k hk
          rcases List.mem_append.mp hk with hk | hk
          · exact (hclear l g' hl hg').2 k hk
          · exact h.apart j l f g' hjl hn hg' k hk
      · rcases flight_update hg' with ⟨rfl, rfl⟩ | ⟨-, hg'⟩
        · clear hg'
          intro k hk hkt
          rcases List.mem_append.mp hkt with hkt | hkt
          · exact (hclear j g hj hgm).1 k hkt hk
          · exact h.apart j l g f hj hgm hn k hk hkt
        · exact h.apart j l g g' hjl hgm hg'
    · intro k hk
      have hkn := hk n _ (Function.update_self n _ _)
      rw [List.mem_append, not_or] at hkn
      refine (f.rest.act_of_notMem m.store hkn.1).trans (h.rest k ?_)
      intro j g hg
      by_cases hj : j = n
      · subst hj
        rw [hn] at hg
        cases hg
        exact hkn.2
      · exact hk j g ((Function.update_of_ne hj _ _).trans hg)

theorem answer_invariant {code : ι → Prog β ρ} {s : Store β} {m : State β ρ ι} (n : ℕ)
    (h : Invariant code s m) : Invariant code s (next code m (.answer n)) := by
  cases hn : m.flights n with
  | none => simpa only [next, hn] using h
  | some f =>
    obtain ⟨r, p, T, W⟩ := f
    cases p with
    | read k p => simpa only [next, hn] using h
    | update k f p => simpa only [next, hn] using h
    | store ws p => simpa only [next, hn] using h
    | done a =>
      obtain ⟨t, ht, hagree⟩ := h.replays n _ hn
      -- the replay has run to its end, so it is what the serial run does next
      have hrun : (code r).run (serial code s (m.answered.map Prod.fst)).2 = (a, t) :=
        ht.run_eq
      have hserial : serial code s ((m.answered ++ [(r, a)]).map Prod.fst) =
          (m.answered ++ [(r, a)], t) := by
        rw [List.map_append, serial_append, h.answers]
        simp [serial, hrun]
      have hothers : ∀ j g, Function.update m.flights n none j = some g →
          j ≠ n ∧ m.flights j = some g := by
        intro j g hg
        by_cases hj : j = n
        · subst hj
          rw [Function.update_self] at hg
          cases hg
        · exact ⟨hj, (Function.update_of_ne hj _ _).symm.trans hg⟩
      simp only [next, hn]
      constructor
      · rw [hserial]
      · intro j g hg
        obtain ⟨hj, hg⟩ := hothers j g hg
        obtain ⟨u, hu, hug⟩ := h.replays j g hg
        have hbase : ∀ k ∈ g.touched,
            (serial code s (m.answered.map Prod.fst)).2 k = t k := by
          intro k hk
          exact (ht.unwritten k fun hw => h.apart n j _ g hj.symm hn hg k hw hk).symm
        obtain ⟨u', hu', huu⟩ := hu.transport hbase
        rw [hserial]
        exact ⟨u', hu', fun k hk => (hug k hk).trans (huu k hk)⟩
      · intro j l g g' hjl hg hg'
        exact h.apart j l g g' hjl (hothers j g hg).2 (hothers l g' hg').2
      · intro k hk
        rw [hserial]
        by_cases hkT : k ∈ T
        · exact hagree k hkT
        · have hkW : k ∉ W := fun hw => hkT (ht.written_subset k hw)
          refine (h.rest k ?_).trans (ht.unwritten k hkW).symm
          intro j g hg
          by_cases hj : j = n
          · subst hj
            rw [hn] at hg
            cases hg
            exact hkW
          · exact hk j g ((Function.update_of_ne hj _ _).trans hg)

theorem step_preserves_invariant {code : ι → Prog β ρ} {s : Store β} {m : State β ρ ι}
    {e : Event ι} (hq : Quiet m e) (h : Invariant code s m) :
    Invariant code s (next code m e) := by
  cases e with
  | start n r => exact start_invariant n r h
  | advance n => exact advance_invariant n hq h
  | answer n => exact answer_invariant n h

theorem exec_preserves_invariant {code : ι → Prog β ρ} {s : Store β} {m : State β ρ ι}
    {es : List (Event ι)} (hq : ConflictFree code m es) (h : Invariant code s m) :
    Invariant code s (exec code m es) := by
  induction es generalizing m with
  | nil => exact h
  | cons e es ih => exact ih hq.2 (step_preserves_invariant hq.1 h)

/-- Once every request is answered, the run is the serial one in the order of the answers. -/
theorem settled_serial {code : ι → Prog β ρ} {s : Store β} {es : List (Event ι)}
    (hq : ConflictFree code (initial s) es) (hs : Settled (exec code (initial s) es)) :
    serial code s ((exec code (initial s) es).answered.map Prod.fst) =
      ((exec code (initial s) es).answered, (exec code (initial s) es).store) := by
  have h := exec_preserves_invariant hq (initial_invariant code s)
  refine Prod.ext h.answers (funext fun k => ?_)
  refine (h.rest k fun n f hf => ?_).symm
  rw [hs n] at hf
  cases hf

section Check

def Event.flight : Event ι → ℕ
  | .start n _ => n
  | .advance n => n
  | .answer n => n

def Below (b : ℕ) (m : State β ρ ι) : Prop := ∀ n, b ≤ n → m.flights n = none

theorem next_below {code : ι → Prog β ρ} {b : ℕ} {m : State β ρ ι} {e : Event ι}
    (he : e.flight < b) (h : Below b m) : Below b (next code m e) := by
  intro n hn
  have hne : n ≠ e.flight := by omega
  have hm := h n hn
  cases e with
  | start k r =>
    simp only [next]
    split
    · exact hm
    · exact (Function.update_of_ne hne _ _).trans hm
  | advance k =>
    simp only [next]
    split
    · exact hm
    · exact (Function.update_of_ne hne _ _).trans hm
  | answer k =>
    simp only [next]
    split
    · exact (Function.update_of_ne hne _ _).trans hm
    · exact hm

theorem exec_below {code : ι → Prog β ρ} {b : ℕ} {m : State β ρ ι} {es : List (Event ι)}
    (he : ∀ e ∈ es, e.flight < b) (h : Below b m) : Below b (exec code m es) := by
  induction es generalizing m with
  | nil => exact h
  | cons e es ih =>
    exact ih (fun e he' => he e (List.mem_cons_of_mem _ he'))
      (next_below (he e List.mem_cons_self) h)

omit [DecidableEq κ] in
theorem settled_of_below {b : ℕ} {m : State β ρ ι} (h : Below b m)
    (hnone : ∀ n < b, (m.flights n).isNone = true) : Settled m := by
  intro n
  by_cases hn : n < b
  · exact Option.isNone_iff_eq_none.mp (hnone n hn)
  · exact h n (by omega)

def quietBelow (b : ℕ) (m : State β ρ ι) : Event ι → Bool
  | .advance n =>
    (m.flights n).all fun f => (List.range b).all fun j => j == n || (m.flights j).all fun g =>
      f.rest.touched.all (fun k => decide (k ∉ g.written)) &&
        f.rest.written.all fun k => decide (k ∉ g.touched)
  | _ => true

/-- The run is conflict free and leaves no flight, by looking at the flights below b. -/
def checkedRun (code : ι → Prog β ρ) (b : ℕ) : State β ρ ι → List (Event ι) → Bool
  | m, [] => (List.range b).all fun n => (m.flights n).isNone
  | m, e :: es => decide (e.flight < b) && quietBelow b m e && checkedRun code b (next code m e) es

theorem quiet_of_below {b : ℕ} {m : State β ρ ι} {e : Event ι} (hb : Below b m)
    (h : quietBelow b m e = true) : Quiet m e := by
  cases e with
  | start n r => trivial
  | answer n => trivial
  | advance n =>
    intro f hf j g hj hg
    have hjb : j < b := by
      by_contra hjb
      rw [hb j (by omega)] at hg
      cases hg
    simp only [quietBelow, hf, Option.all_some, List.all_eq_true, List.mem_range] at h
    have hjg := h j hjb
    simpa [hj, hg] using hjg

theorem checkedRun_sound {code : ι → Prog β ρ} {b : ℕ} {m : State β ρ ι} {es : List (Event ι)}
    (hb : Below b m) (h : checkedRun code b m es = true) :
    ConflictFree code m es ∧ Settled (exec code m es) := by
  induction es generalizing m with
  | nil =>
    simp only [checkedRun, List.all_eq_true, List.mem_range] at h
    exact ⟨trivial, settled_of_below hb h⟩
  | cons e es ih =>
    simp only [checkedRun, Bool.and_eq_true, decide_eq_true_eq] at h
    obtain ⟨hfree, hset⟩ := ih (next_below h.1.1 hb) h.2
    exact ⟨⟨quiet_of_below hb h.1.2, hfree⟩, hset⟩

end Check

end ConflictSerial
