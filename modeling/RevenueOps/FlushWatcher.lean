import RevenueOps.CallLog
import RevenueOps.RustNumber

/-! The flush watcher: when a change of Python's flush marker sets off a fee cycle, and when
silence is reported. A call whose clock arithmetic leaves i64 returns nothing. -/
namespace FlushWatch

open RustNumber

structure WatchParams where
  settleSecs : UInt64
  staleAfterSecs : UInt64
  deriving DecidableEq

inductive PollOutcome where
  | baselined
  | advanced
  | runCycle
  | idle
  | staleNoFlush (silentSecs : ℤ)
  deriving DecidableEq, Repr

/-- `lastMarker` is missing until the first successful read; the marker itself can be NULL. -/
structure FlushWatcher where
  lastMarker : Option (Option ℤ)
  lastAdvanceAt : ℤ
  settleDeadline : Option ℤ
  nextStaleReportAt : Option ℤ
  deriving DecidableEq

def FlushWatcher.new (now : ℤ) : FlushWatcher := ⟨none, now, none, none⟩

/-- `u64 as i64`: the upper half of the range comes out negative. -/
def wrapI64 (n : UInt64) : ℤ := n.toInt64.toInt

def FlushWatcher.onPoll (w : FlushWatcher) (marker : Option ℤ) (now : ℤ) (params : WatchParams) :
    Option (FlushWatcher × PollOutcome) :=
  match w.lastMarker with
  | none => some ({ w with lastMarker := some marker, lastAdvanceAt := now }, .baselined)
  | some prev =>
    if prev ≠ marker then do
      let deadline ← addI64 now (wrapI64 params.settleSecs)
      pure (⟨some marker, now, some deadline, none⟩, .advanced)
    else match w.settleDeadline with
      | some deadline =>
        if deadline ≤ now then some ({ w with settleDeadline := none }, .runCycle)
        else some (w, .idle)
      | none => do
        let silentSecs ← subI64 now w.lastAdvanceAt
        if wrapI64 params.staleAfterSecs < silentSecs ∧
            ∀ t, w.nextStaleReportAt = some t → t ≤ now then do
          let next ← addI64 now (wrapI64 params.staleAfterSecs)
          pure ({ w with nextStaleReportAt := some next }, .staleNoFlush silentSecs)
        else pure (w, .idle)

structure Poll where
  marker : Option ℤ
  now : ℤ
  outcome : PollOutcome
  deriving DecidableEq

inductive Polls (params : WatchParams) (start : ℤ) : FlushWatcher → List Poll → Prop where
  | new : Polls params start (.new start) []
  | poll {w w' : FlushWatcher} {log : List Poll} {marker : Option ℤ} {now : ℤ}
      {outcome : PollOutcome} (earlier : Polls params start w log)
      (call : w.onPoll marker now params = some (w', outcome)) :
      Polls params start w' (log ++ [⟨marker, now, outcome⟩])

/-- The marker is new to the watcher: the baseline or a change of it. -/
def Poll.Observes (p : Poll) : Prop := p.outcome = .baselined ∨ p.outcome = .advanced

instance (p : Poll) : Decidable p.Observes := inferInstanceAs (Decidable (_ ∨ _))

structure WatchParams.Fits (params : WatchParams) : Prop where
  settle : params.settleSecs.toNat < 9223372036854775808
  stale : params.staleAfterSecs.toNat < 9223372036854775808

instance (params : WatchParams) : Decidable params.Fits :=
  decidable_of_iff (params.settleSecs.toNat < 9223372036854775808 ∧
      params.staleAfterSecs.toNat < 9223372036854775808)
    ⟨fun h => ⟨h.1, h.2⟩, fun h => ⟨h.1, h.2⟩⟩

theorem wrapI64_of_lt {n : UInt64} (h : n.toNat < 9223372036854775808) :
    wrapI64 n = n.toNat := by
  change n.toInt64.toBitVec.toInt = n.toBitVec.toNat
  rw [UInt64.toBitVec_toInt64]
  exact BitVec.toInt_eq_toNat_of_lt (by change 2 * n.toNat < 2 ^ 64; omega)

variable {params : WatchParams} {start now : ℤ} {w w' : FlushWatcher} {log quiet : List Poll}
  {marker : Option ℤ} {outcome : PollOutcome} {c p : Poll}

inductive Call (params : WatchParams) (w : FlushWatcher) (marker : Option ℤ) (now : ℤ) :
    FlushWatcher → PollOutcome → Prop where
  | baselined (first : w.lastMarker = none) :
      Call params w marker now { w with lastMarker := some marker, lastAdvanceAt := now } .baselined
  | advanced {prev : Option ℤ} (known : w.lastMarker = some prev) (changed : prev ≠ marker) :
      Call params w marker now
        ⟨some marker, now, some (now + wrapI64 params.settleSecs), none⟩ .advanced
  | runCycle {deadline : ℤ} (same : w.lastMarker = some marker)
      (armed : w.settleDeadline = some deadline) (settled : deadline ≤ now) :
      Call params w marker now { w with settleDeadline := none } .runCycle
  | idle (same : w.lastMarker = some marker) : Call params w marker now w .idle
  | staleNoFlush (same : w.lastMarker = some marker) (unarmed : w.settleDeadline = none)
      (silent : wrapI64 params.staleAfterSecs < now - w.lastAdvanceAt)
      (due : ∀ t, w.nextStaleReportAt = some t → t ≤ now) :
      Call params w marker now
        { w with nextStaleReportAt := some (now + wrapI64 params.staleAfterSecs) }
        (.staleNoFlush (now - w.lastAdvanceAt))

theorem addI64_eq_some {a b x : ℤ} (h : addI64 a b = some x) : x = a + b :=
  (i64?_eq_some.mp h).2.symm

theorem subI64_eq_some {a b x : ℤ} (h : subI64 a b = some x) : x = a - b :=
  (i64?_eq_some.mp h).2.symm

theorem call_of_onPoll (h : w.onPoll marker now params = some (w', outcome)) :
    Call params w marker now w' outcome := by
  obtain ⟨lastMarker, lastAdvanceAt, settleDeadline, nextStaleReportAt⟩ := w
  cases lastMarker with
  | none =>
    simp only [FlushWatcher.onPoll, Option.some.injEq, Prod.mk.injEq] at h
    obtain ⟨rfl, rfl⟩ := h
    exact .baselined rfl
  | some prev =>
    simp only [FlushWatcher.onPoll] at h
    by_cases hsame : prev = marker
    · subst hsame
      rw [if_neg (by simp)] at h
      cases settleDeadline with
      | some deadline =>
        by_cases hdue : deadline ≤ now
        · simp only [if_pos hdue, Option.some.injEq, Prod.mk.injEq] at h
          obtain ⟨rfl, rfl⟩ := h
          exact .runCycle rfl rfl hdue
        · simp only [if_neg hdue, Option.some.injEq, Prod.mk.injEq] at h
          obtain ⟨rfl, rfl⟩ := h
          exact .idle rfl
      | none =>
        simp only [Option.bind_eq_bind, Option.bind_eq_some_iff] at h
        obtain ⟨silentSecs, hsilent, h⟩ := h
        obtain rfl := subI64_eq_some hsilent
        by_cases hstale : wrapI64 params.staleAfterSecs < now - lastAdvanceAt ∧
            ∀ t, nextStaleReportAt = some t → t ≤ now
        · simp only [if_pos hstale, Option.bind_eq_some_iff] at h
          obtain ⟨next, hnext, h⟩ := h
          obtain rfl := addI64_eq_some hnext
          simp only [Option.pure_def, Option.some.injEq, Prod.mk.injEq] at h
          obtain ⟨rfl, rfl⟩ := h
          exact .staleNoFlush rfl rfl hstale.1 hstale.2
        · simp only [if_neg hstale, Option.pure_def, Option.some.injEq, Prod.mk.injEq] at h
          obtain ⟨rfl, rfl⟩ := h
          exact .idle rfl
    · rw [if_pos hsame] at h
      simp only [Option.bind_eq_bind, Option.bind_eq_some_iff, Option.pure_def, Option.some.injEq,
        Prod.mk.injEq] at h
      obtain ⟨deadline, hdeadline, rfl, rfl⟩ := h
      obtain rfl := addI64_eq_some hdeadline
      exact .advanced rfl hsame

theorem onPoll_due {deadline : ℤ} (hmarker : w.lastMarker = some marker)
    (harmed : w.settleDeadline = some deadline) (hdue : deadline ≤ now) :
    w.onPoll marker now params = some ({ w with settleDeadline := none }, .runCycle) := by
  rw [FlushWatcher.onPoll, hmarker, harmed]
  simp [hdue]

theorem Polls.snoc_inv (h : Polls params start w (log ++ [p])) :
    ∃ u, Polls params start u log ∧ u.onPoll p.marker p.now params = some (w, p.outcome) := by
  generalize hlog : log ++ [p] = log' at h
  cases h with
  | new => simp at hlog
  | poll earlier call =>
    obtain ⟨rfl, hp⟩ := List.append_inj' hlog rfl
    obtain rfl := List.singleton_injective hp
    exact ⟨_, earlier, call⟩

theorem Polls.before {after : List Poll} (h : Polls params start w (log ++ p :: after)) :
    ∃ u v, Polls params start u log ∧ u.onPoll p.marker p.now params = some (v, p.outcome) := by
  induction after using List.reverseRecOn generalizing w with
  | nil =>
    obtain ⟨u, hu, hcall⟩ := h.snoc_inv
    exact ⟨u, w, hu, hcall⟩
  | append_singleton after q ih =>
    rw [← List.cons_append, ← List.append_assoc] at h
    obtain ⟨u, hu, -⟩ := h.snoc_inv
    exact ih hu

/-- What the watcher knows of the calls from the last observation of the marker on. -/
structure Since (params : WatchParams) (w : FlushWatcher) (c : Poll) (quiet : List Poll) :
    Prop where
  observes : c.Observes
  lastMarker : w.lastMarker = some c.marker
  lastAdvanceAt : w.lastAdvanceAt = c.now
  same : ∀ q ∈ quiet, q.marker = c.marker ∧ ¬ q.Observes
  armed : ∀ d, w.settleDeadline = some d → c.outcome = .advanced ∧
    d = c.now + params.settleSecs.toNat ∧ ∀ q ∈ quiet, q.outcome ≠ .runCycle
  reported : ∀ q ∈ quiet, ∀ s, q.outcome = .staleNoFlush s →
    ∃ t, w.nextStaleReportAt = some t ∧ q.now + params.staleAfterSecs.toNat ≤ t

def Remembers (params : WatchParams) (start : ℤ) (w : FlushWatcher) (log : List Poll) : Prop :=
  (log = [] ∧ w = .new start) ∨
    ∃ before c quiet, log = before ++ c :: quiet ∧ Since params w c quiet

theorem Since.snoc (h : Since params w c quiet) (hp : p.marker = c.marker ∧ ¬ p.Observes)
    (hmarker : w'.lastMarker = w.lastMarker) (hat : w'.lastAdvanceAt = w.lastAdvanceAt)
    (harmed : ∀ d, w'.settleDeadline = some d →
      w.settleDeadline = some d ∧ p.outcome ≠ .runCycle)
    (hkept : ∀ t, w.nextStaleReportAt = some t →
      ∃ t', w'.nextStaleReportAt = some t' ∧ t ≤ t')
    (hnew : ∀ s, p.outcome = .staleNoFlush s →
      ∃ t, w'.nextStaleReportAt = some t ∧ p.now + params.staleAfterSecs.toNat ≤ t) :
    Since params w' c (quiet ++ [p]) where
  observes := h.observes
  lastMarker := hmarker.trans h.lastMarker
  lastAdvanceAt := hat.trans h.lastAdvanceAt
  same := by
    simpa only [List.mem_append, List.mem_singleton, or_imp, forall_and, forall_eq] using
      ⟨⟨fun q hq => (h.same q hq).1, hp.1⟩, fun q hq => (h.same q hq).2, hp.2⟩
  armed d hd := by
    obtain ⟨hw, hrun⟩ := harmed d hd
    obtain ⟨hadvanced, hdeadline, hquiet⟩ := h.armed d hw
    refine ⟨hadvanced, hdeadline, fun q hq => ?_⟩
    rcases List.mem_append.mp hq with hq | hq
    · exact hquiet q hq
    · obtain rfl := List.mem_singleton.mp hq
      exact hrun
  reported q hq s hs := by
    rcases List.mem_append.mp hq with hq | hq
    · obtain ⟨t, ht, hle⟩ := h.reported q hq s hs
      obtain ⟨t', ht', htt⟩ := hkept t ht
      exact ⟨t', ht', by omega⟩
    · obtain rfl := List.mem_singleton.mp hq
      exact hnew s hs

theorem Since.observed (hc : c.Observes) (hmarker : w.lastMarker = some c.marker)
    (hat : w.lastAdvanceAt = c.now)
    (harmed : ∀ d, w.settleDeadline = some d →
      c.outcome = .advanced ∧ d = c.now + params.settleSecs.toNat) : Since params w c [] where
  observes := hc
  lastMarker := hmarker
  lastAdvanceAt := hat
  same _ hq := absurd hq List.not_mem_nil
  armed d hd := ⟨(harmed d hd).1, (harmed d hd).2, fun _ hq => absurd hq List.not_mem_nil⟩
  reported _ hq := absurd hq List.not_mem_nil

theorem Remembers.call (hfits : params.Fits) (h : Remembers params start w log)
    (hcall : Call params w marker now w' outcome) :
    Remembers params start w' (log ++ [⟨marker, now, outcome⟩]) := by
  have hstale := wrapI64_of_lt hfits.stale
  cases hcall with
  | baselined first =>
    obtain ⟨rfl, rfl⟩ | ⟨before, c, quiet, rfl, hsince⟩ := h
    · exact .inr ⟨[], _, [], rfl, .observed (.inl rfl) rfl rfl fun d hd => by cases hd⟩
    · rw [hsince.lastMarker] at first
      cases first
  | advanced known changed =>
    refine .inr ⟨log, _, [], rfl, .observed (.inr rfl) rfl rfl fun d hd => ?_⟩
    rw [wrapI64_of_lt hfits.settle, Option.some.injEq] at hd
    exact ⟨rfl, hd.symm⟩
  | runCycle same armed settled =>
    obtain ⟨rfl, rfl⟩ | ⟨before, c, quiet, rfl, hsince⟩ := h
    · cases same
    · refine .inr ⟨before, c, quiet ++ [⟨marker, now, .runCycle⟩], by simp,
        hsince.snoc ⟨?_, ?_⟩ rfl rfl ?_ ?_ ?_⟩
      · exact Option.some.inj (same.symm.trans hsince.lastMarker)
      · simp [Poll.Observes]
      · exact fun d hd => by cases hd
      · exact fun t ht => ⟨t, ht, le_refl t⟩
      · exact fun s hs => by cases hs
  | idle same =>
    obtain ⟨rfl, rfl⟩ | ⟨before, c, quiet, rfl, hsince⟩ := h
    · cases same
    · refine .inr ⟨before, c, quiet ++ [⟨marker, now, .idle⟩], by simp,
        hsince.snoc ⟨?_, ?_⟩ rfl rfl ?_ ?_ ?_⟩
      · exact Option.some.inj (same.symm.trans hsince.lastMarker)
      · simp [Poll.Observes]
      · exact fun d hd => ⟨hd, by simp⟩
      · exact fun t ht => ⟨t, ht, le_refl t⟩
      · exact fun s hs => by cases hs
  | staleNoFlush same unarmed silent due =>
    obtain ⟨rfl, rfl⟩ | ⟨before, c, quiet, rfl, hsince⟩ := h
    · cases same
    · refine .inr ⟨before, c,
        quiet ++ [⟨marker, now, .staleNoFlush (now - w.lastAdvanceAt)⟩], by simp,
        hsince.snoc ⟨?_, ?_⟩ rfl rfl ?_ ?_ ?_⟩
      · exact Option.some.inj (same.symm.trans hsince.lastMarker)
      · simp [Poll.Observes]
      · exact fun d hd => by simp [unarmed] at hd
      · intro t ht
        refine ⟨_, rfl, ?_⟩
        have hdue := due t ht
        omega
      · intro s hs
        exact ⟨_, rfl, by rw [hstale]⟩

theorem Polls.remembers (hfits : params.Fits) (h : Polls params start w log) :
    Remembers params start w log := by
  induction h with
  | new => exact .inl ⟨rfl, rfl⟩
  | poll _ call ih => exact ih.call hfits (call_of_onPoll call)

def Armed (log : List Poll) : Prop :=
  CallLog.Open (fun (p : Poll) (_ : Unit) => p.outcome = .advanced)
    (fun p _ => p.outcome = .runCycle) log ()

theorem Polls.armed_iff (h : Polls params start w log) :
    Armed log ↔ ∃ d, w.settleDeadline = some d := by
  induction h with
  | new => exact ⟨fun h => absurd h CallLog.not_open_nil, fun ⟨d, hd⟩ => by cases hd⟩
  | poll _ call ih =>
    rw [Armed, CallLog.open_snoc, ← Armed, ih]
    cases call_of_onPoll call with
    | baselined first => simp
    | advanced known changed => simp
    | runCycle same armed settled => simp
    | idle same => simp
    | staleNoFlush same unarmed silent due => simp

theorem Polls.waiting (hfits : params.Fits) {before : List Poll}
    (h : Polls params start w (before ++ c :: quiet)) (hc : c.outcome = .advanced)
    (hquiet : ∀ q ∈ quiet, q.marker = c.marker ∧ q.now < c.now + params.settleSecs.toNat) :
    w.lastMarker = some c.marker ∧ w.settleDeadline = some (c.now + params.settleSecs.toNat) := by
  induction quiet using List.reverseRecOn generalizing w with
  | nil =>
    obtain ⟨u, -, hcall⟩ := h.snoc_inv
    rw [hc] at hcall
    cases call_of_onPoll hcall with
    | advanced known changed => exact ⟨rfl, by rw [wrapI64_of_lt hfits.settle]⟩
  | append_singleton quiet q ih =>
    rw [← List.cons_append, ← List.append_assoc] at h
    obtain ⟨u, hu, hcall⟩ := h.snoc_inv
    obtain ⟨hmarker, hdeadline⟩ := ih hu fun r hr => hquiet r (List.mem_append_left _ hr)
    obtain ⟨hsame, hnow⟩ := hquiet q (by simp)
    generalize q.outcome = outcome at hcall
    cases call_of_onPoll hcall with
    | baselined first => simp [hmarker] at first
    | advanced known changed =>
      rw [hmarker, Option.some.injEq] at known
      exact absurd (known.symm.trans hsame.symm) changed
    | runCycle same armed settled =>
      rw [hdeadline, Option.some.injEq] at armed
      omega
    | idle same => exact ⟨hmarker, hdeadline⟩
    | staleNoFlush same unarmed silent due => simp [hdeadline] at unarmed

/-- One cycle for each settled change, and reports of silence only where nothing else is due. -/
structure FiresOncePerChange (params : WatchParams) (w : FlushWatcher) (log : List Poll) :
    Prop where
  first : ∀ (p : Poll) after, log = p :: after → p.outcome = .baselined
  between : ∀ before (p : Poll) mid (q : Poll) after, log = before ++ p :: mid ++ q :: after →
    p.outcome = .runCycle → q.outcome = .runCycle → ∃ c ∈ mid, c.outcome = .advanced
  settled : ∀ before (p : Poll) after, log = before ++ p :: after → p.outcome = .runCycle →
    ∃ (earlier : List Poll) (c : Poll) (quiet : List Poll), before = earlier ++ c :: quiet ∧
      c.outcome = .advanced ∧ c.now ≤ p.now - params.settleSecs.toNat ∧ p.marker = c.marker ∧
      ∀ q ∈ quiet, q.marker = c.marker ∧ ¬ q.Observes
  fires : ∀ before (c : Poll) quiet now, log = before ++ c :: quiet → c.outcome = .advanced →
    (∀ q ∈ quiet, q.marker = c.marker ∧ q.now < c.now + params.settleSecs.toNat) →
    c.now + params.settleSecs.toNat ≤ now →
    ∃ w', w.onPoll c.marker now params = some (w', .runCycle)
  unarmed : ∀ before (p : Poll) after s, log = before ++ p :: after →
    p.outcome = .staleNoFlush s → ¬ Armed before
  silent : ∀ before (p : Poll) after s, log = before ++ p :: after →
    p.outcome = .staleNoFlush s →
    ∃ (earlier : List Poll) (c : Poll) (quiet : List Poll), before = earlier ++ c :: quiet ∧
      c.Observes ∧ (∀ q ∈ quiet, ¬ q.Observes) ∧
      s = p.now - c.now ∧ (params.staleAfterSecs.toNat : ℤ) < s
  spaced : ∀ before (p : Poll) mid (q : Poll) after s s',
    log = before ++ p :: mid ++ q :: after →
    p.outcome = .staleNoFlush s → q.outcome = .staleNoFlush s' →
    (∀ c ∈ mid, c.outcome ≠ .advanced) → p.now + params.staleAfterSecs.toNat ≤ q.now

/-- The call of an entry, over what the watcher remembers of the entries before it. -/
theorem Polls.call_at (hfits : params.Fits) {before after : List Poll}
    (h : Polls params start w (before ++ p :: after)) :
    ∃ u v, Polls params start u before ∧ Remembers params start u before ∧
      Call params u p.marker p.now v p.outcome := by
  obtain ⟨u, v, hu, hcall⟩ := h.before
  exact ⟨u, v, hu, hu.remembers hfits, call_of_onPoll hcall⟩

theorem Remembers.since (h : Remembers params start w log) {m : Option ℤ}
    (hm : w.lastMarker = some m) :
    ∃ before c quiet, log = before ++ c :: quiet ∧ Since params w c quiet := by
  obtain ⟨-, rfl⟩ | hsince := h
  · cases hm
  · exact hsince

/-- An entry that is not in the quiet part and is not the observation lies before it. -/
theorem mem_of_split {before mid earlier : List Poll}
    (h : before ++ p :: mid = earlier ++ c :: quiet) (hc : p ≠ c) (hquiet : p ∉ quiet) :
    c ∈ mid := by
  obtain ⟨t, rfl, ht⟩ | ⟨t, rfl, ht⟩ := List.append_eq_append_iff.mp h
  · cases t with
    | nil =>
      rw [List.nil_append, List.cons.injEq] at ht
      exact absurd ht.1 hc
    | cons d t =>
      rw [List.cons_append, List.cons.injEq] at ht
      rw [ht.2]
      simp
  · cases t with
    | nil =>
      rw [List.nil_append, List.cons.injEq] at ht
      exact absurd ht.1.symm hc
    | cons d t =>
      rw [List.cons_append, List.cons.injEq] at ht
      exact absurd (by rw [ht.2]; simp) hquiet

theorem polls_first {after : List Poll} (h : Polls params start w (p :: after)) :
    p.outcome = .baselined := by
  rw [← List.nil_append (p :: after)] at h
  obtain ⟨u, v, hu, hcall⟩ := h.before
  generalize p.outcome = outcome at hcall
  have hnew : u.lastMarker = none := by
    generalize hlog : ([] : List Poll) = log at hu
    cases hu with
    | new => rfl
    | poll => simp at hlog
  cases call_of_onPoll hcall with
  | baselined first => rfl
  | advanced known changed => simp [hnew] at known
  | runCycle same armed settled => simp [hnew] at same
  | idle same => simp [hnew] at same
  | staleNoFlush same unarmed silent due => simp [hnew] at same

theorem polls_baselined (hfits : params.Fits) {before after : List Poll}
    (h : Polls params start w (before ++ p :: after)) (hp : p.outcome = .baselined) :
    before = [] := by
  obtain ⟨u, v, -, hrem, hcall⟩ := h.call_at hfits
  rw [hp] at hcall
  cases hcall with
  | baselined first =>
    obtain ⟨rfl, -⟩ | ⟨earlier, c, quiet, -, hsince⟩ := hrem
    · rfl
    · simp [hsince.lastMarker] at first

theorem polls_runCycle (hfits : params.Fits) {before after : List Poll}
    (h : Polls params start w (before ++ p :: after)) (hp : p.outcome = .runCycle) :
    ∃ earlier c quiet, before = earlier ++ c :: quiet ∧ c.outcome = .advanced ∧
      c.now ≤ p.now - params.settleSecs.toNat ∧ p.marker = c.marker ∧
      ∀ q ∈ quiet, q.marker = c.marker ∧ ¬ q.Observes ∧ q.outcome ≠ .runCycle := by
  obtain ⟨u, v, -, hrem, hcall⟩ := h.call_at hfits
  rw [hp] at hcall
  cases hcall with
  | runCycle same armed settled =>
    obtain ⟨earlier, c, quiet, rfl, hsince⟩ := hrem.since same
    obtain ⟨hadvanced, hdeadline, hruns⟩ := hsince.armed _ armed
    refine ⟨earlier, c, quiet, rfl, hadvanced, by omega, ?_, fun q hq => ?_⟩
    · exact Option.some.inj (same.symm.trans hsince.lastMarker)
    · exact ⟨(hsince.same q hq).1, (hsince.same q hq).2, hruns q hq⟩

theorem polls_stale (hfits : params.Fits) {before after : List Poll} {s : ℤ}
    (h : Polls params start w (before ++ p :: after)) (hp : p.outcome = .staleNoFlush s) :
    ¬ Armed before ∧ ∃ earlier c quiet, before = earlier ++ c :: quiet ∧ c.Observes ∧
      (∀ q ∈ quiet, ¬ q.Observes) ∧ (s = p.now - c.now ∧ (params.staleAfterSecs.toNat : ℤ) < s) ∧
      ∀ q ∈ quiet, ∀ s', q.outcome = .staleNoFlush s' →
        q.now + params.staleAfterSecs.toNat ≤ p.now := by
  obtain ⟨u, v, hu, hrem, hcall⟩ := h.call_at hfits
  rw [hp] at hcall
  cases hcall with
  | staleNoFlush same unarmed silent due =>
    obtain ⟨earlier, c, quiet, rfl, hsince⟩ := hrem.since same
    rw [wrapI64_of_lt hfits.stale] at silent
    refine ⟨fun harmed => ?_, earlier, c, quiet, rfl, hsince.observes,
      fun q hq => (hsince.same q hq).2, ⟨by rw [hsince.lastAdvanceAt], silent⟩, ?_⟩
    · obtain ⟨d, hd⟩ := hu.armed_iff.mp harmed
      simp [unarmed] at hd
    · intro q hq s' hs'
      obtain ⟨t, ht, hle⟩ := hsince.reported q hq s' hs'
      exact hle.trans (due t ht)

theorem polls_spaced (hfits : params.Fits) {before mid after : List Poll} {q : Poll} {s s' : ℤ}
    (h : Polls params start w (before ++ p :: mid ++ q :: after))
    (hp : p.outcome = .staleNoFlush s) (hq : q.outcome = .staleNoFlush s')
    (hmid : ∀ c ∈ mid, c.outcome ≠ .advanced) : p.now + params.staleAfterSecs.toNat ≤ q.now := by
  obtain ⟨-, earlier, c, quiet, heq, hobserves, -, -, hspaced⟩ := polls_stale hfits h hq
  by_cases hquiet : p ∈ quiet
  · exact hspaced p hquiet s hp
  · have hne : p ≠ c := by
      rintro rfl
      simp [Poll.Observes, hp] at hobserves
    have hmem := mem_of_split heq hne hquiet
    obtain hbase | hadvanced := hobserves
    · obtain ⟨left, right, rfl⟩ := List.append_of_mem hmem
      have hsplit : before ++ p :: (left ++ c :: right) ++ q :: after =
          (before ++ p :: left) ++ c :: (right ++ q :: after) := by simp
      rw [hsplit] at h
      simpa using polls_baselined hfits h hbase
    · exact absurd hadvanced (hmid c hmem)

theorem polls_between (hfits : params.Fits) {before mid after : List Poll} {q : Poll}
    (h : Polls params start w (before ++ p :: mid ++ q :: after))
    (hp : p.outcome = .runCycle) (hq : q.outcome = .runCycle) :
    ∃ c ∈ mid, c.outcome = .advanced := by
  obtain ⟨earlier, c, quiet, heq, hadvanced, -, -, hquiet⟩ := polls_runCycle hfits h hq
  have hne : p ≠ c := by
    rintro rfl
    simp [hp] at hadvanced
  exact ⟨c, mem_of_split heq hne fun hmem => (hquiet p hmem).2.2 hp, hadvanced⟩

theorem fires_once_per_change (hfits : params.Fits) (h : Polls params start w log) :
    FiresOncePerChange params w log where
  first := by
    rintro p after rfl
    exact polls_first h
  between := by
    rintro before p mid q after rfl hp hq
    exact polls_between hfits h hp hq
  settled := by
    rintro before p after rfl hp
    obtain ⟨earlier, c, quiet, heq, hadvanced, hnow, hmarker, hquiet⟩ := polls_runCycle hfits h hp
    exact ⟨earlier, c, quiet, heq, hadvanced, hnow, hmarker,
      fun q hq => ⟨(hquiet q hq).1, (hquiet q hq).2.1⟩⟩
  fires := by
    rintro before c quiet now rfl hc hquiet hnow
    obtain ⟨hmarker, hdeadline⟩ := h.waiting hfits hc hquiet
    exact ⟨_, onPoll_due hmarker hdeadline hnow⟩
  unarmed := by
    rintro before p after s rfl hp
    exact (polls_stale hfits h hp).1
  silent := by
    rintro before p after s rfl hp
    obtain ⟨-, earlier, c, quiet, heq, hobserves, hquiet, hs, -⟩ := polls_stale hfits h hp
    exact ⟨earlier, c, quiet, heq, hobserves, hquiet, hs⟩
  spaced := by
    rintro before p mid q after s s' rfl hp hq hmid
    exact polls_spaced hfits h hp hq hmid

/-- A change at 100, the same marker on, and a settle delay of half a minute. -/
theorem fires_once_per_change_settled :
    FiresOncePerChange ⟨30, 3600⟩ ⟨some (some 7), 100, none, none⟩
      [⟨none, 60, .baselined⟩, ⟨some 7, 100, .advanced⟩, ⟨some 7, 120, .idle⟩,
        ⟨some 7, 130, .runCycle⟩] :=
  fires_once_per_change (by decide)
    (show Polls _ 0 _ _ from (((Polls.new.poll rfl).poll rfl).poll rfl).poll rfl)

/-- A settle delay past i64 wraps to a negative one, and the cycle runs at once. -/
theorem wrapped_settle_fires_early :
    Polls ⟨18446744073709551615, 3600⟩ 0 ⟨some (some 7), 100, none, none⟩
        [⟨none, 60, .baselined⟩, ⟨some 7, 100, .advanced⟩, ⟨some 7, 100, .runCycle⟩] ∧
      ¬ FiresOncePerChange ⟨18446744073709551615, 3600⟩ ⟨some (some 7), 100, none, none⟩
        [⟨none, 60, .baselined⟩, ⟨some 7, 100, .advanced⟩, ⟨some 7, 100, .runCycle⟩] := by
  constructor
  · exact ((Polls.new.poll rfl).poll rfl).poll rfl
  · intro h
    obtain ⟨earlier, c, quiet, hsplit, -, hnow, -⟩ := h.settled [_, _] _ [] rfl rfl
    have hc : c ∈ [(⟨none, 60, .baselined⟩ : Poll), ⟨some 7, 100, .advanced⟩] := by
      rw [hsplit]
      simp
    have hdelay : 60 ≤ c.now := by
      rcases List.mem_pair.mp hc with rfl | rfl <;> decide
    change c.now ≤ 100 - 18446744073709551615 at hnow
    omega

end FlushWatch
