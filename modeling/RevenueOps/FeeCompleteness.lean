import RevenueOps.EconLedger
import RevenueOps.RustNumber
import RevenueOps.TimeClusters

/-! The rows of fee_changes against the fee intents of the ledger. Changes close in time form one
cycle; a cycle is complete when as many intents lie within the tolerance of it. -/
namespace FeeCompleteness

open FallibleState JsonValue EconIntents EconLedger RustNumber RustText TimeClusters

/-- The time in the cycle id of a fee intent; no value for any other event. -/
def feeIntentTime (e : LedgerEvent) : Option ℤ :=
  if e.eventType = .intentProposed then
    if startsWith e.cycleId "fee-cycle-" || startsWith e.cycleId "fee-broadcast-" then
      match rsplitOnce e.cycleId '-' with
      | some (_, ts) => parseI64 ts
      | none => none
    else none
  else none

def intentTimes (events : List LedgerEvent) : List ℤ := events.filterMap feeIntentTime

def changeTime (row : Json) : ℤ := ((row.get "timestamp").bind Json.asI64).getD 0

/-- The times of the judged changes: those from the start of the window on. -/
def changeTimes (feeChanges : List Json) (windowStart : ℤ) : List ℤ :=
  (feeChanges.map changeTime).filter (windowStart ≤ ·)

/-- Group the counted times behind a cluster that is still open. -/
def clusterFrom (toleranceSeconds : ℤ) (last : Cluster) :
    List (ℤ × ℤ) → Outcome EconError (List Cluster)
  | [] => pure [last]
  | (ts, count) :: rest => do
    let gap ← .checked (subI64 ts last.stop)
    if gap ≤ toleranceSeconds then
      clusterFrom toleranceSeconds { last with stop := ts, count := last.count + count } rest
    else do
      let more ← clusterFrom toleranceSeconds ⟨ts, ts, count⟩ rest
      pure (last :: more)

def clusters (toleranceSeconds : ℤ) : List (ℤ × ℤ) → Outcome EconError (List Cluster)
  | [] => pure []
  | (ts, count) :: rest => clusterFrom toleranceSeconds ⟨ts, ts, count⟩ rest

/-- The upper end is only computed for an intent that is not before the lower one. -/
def credited (toleranceSeconds : ℤ) (c : Cluster) (intent : ℤ × ℤ) : Outcome EconError Bool := do
  let lower ← .checked (subI64 c.start toleranceSeconds)
  if lower ≤ intent.1 then do
    let upper ← .checked (addI64 c.stop toleranceSeconds)
    pure (intent.1 ≤ upper)
  else pure false

def matchedIntents (toleranceSeconds : ℤ) (c : Cluster) :
    List (ℤ × ℤ) → Outcome EconError ℤ
  | [] => pure 0
  | intent :: rest => do
    let inReach ← credited toleranceSeconds c intent
    let others ← matchedIntents toleranceSeconds c rest
    pure ((if inReach then intent.2 else 0) + others)

structure Mismatch where
  startTs : ℤ
  feeChanges : ℤ
  intents : ℤ
  deriving DecidableEq, Repr

def mismatchedCycles (toleranceSeconds : ℤ) (intents : List (ℤ × ℤ)) :
    List Cluster → Outcome EconError (List Mismatch)
  | [] => pure []
  | c :: cs => do
    let matched ← matchedIntents toleranceSeconds c intents
    let others ← mismatchedCycles toleranceSeconds intents cs
    pure (if matched ≠ c.count then ⟨c.start, c.count, matched⟩ :: others else others)

inductive Completeness where
  | noIntentData
  | ok (windowStart : ℤ) (cyclesChecked : ℕ) (mismatched : List Mismatch)
  deriving DecidableEq, Repr

/-- The field complete of the answer; no value stands for null. -/
def Completeness.complete : Completeness → Option Bool
  | noIntentData => none
  | ok _ _ mismatched => some mismatched.isEmpty

/-- The cycles in front of the first ledgered intent are not judged. -/
def windowStart (events : List LedgerEvent) (start : ℤ) : ℤ :=
  match tally (intentTimes events) with
  | [] => start
  | first :: _ => max start first.1

def feeIntentCompleteness (events : List LedgerEvent) (feeChanges : List Json)
    (now windowSeconds toleranceSeconds : ℤ) : Outcome EconError Completeness :=
  let intentsByTs := tally (intentTimes events)
  if intentsByTs.isEmpty then pure .noIntentData
  else do
    let start ← .checked (subI64 now windowSeconds)
    let since := windowStart events start
    let cycles ← clusters toleranceSeconds (tally (changeTimes feeChanges since))
    let mismatched ← mismatchedCycles toleranceSeconds intentsByTs cycles
    pure (.ok since cycles.length mismatched)

section Grouping

variable {tol : ℤ} {last : Cluster} {cs : List Cluster} {seen rest : List (ℤ × ℤ)}

theorem covers_single (ts count : ℤ) : Covers tol ⟨ts, ts, count⟩ [(ts, count)] where
  startMem := by simp
  stopMem := by simp
  within := by simp
  linked := by simp
  counted := by simp

/-- A key within the tolerance of the last one joins its cluster. -/
theorem covers_extend {ts : ℤ} (count : ℤ) (h : Covers tol last seen) (hlt : last.stop < ts)
    (hgap : ts - last.stop ≤ tol) :
    Covers tol { last with stop := ts, count := last.count + count } (seen ++ [(ts, count)]) := by
  refine ⟨?_, ?_, ?_, ?_, ?_⟩
  · rw [List.map_append]
    exact List.mem_append_left _ h.startMem
  · simp
  · intro k hk
    rw [List.map_append] at hk
    rcases List.mem_append.mp hk with hk | hk
    · have hwithin := h.within k hk
      exact ⟨hwithin.1, by dsimp only; omega⟩
    · have hstart := h.start_le
      obtain rfl : k = ts := by simpa using hk
      exact ⟨by dsimp only; omega, le_rfl⟩
  · intro k hk hkts
    rw [List.map_append] at hk ⊢
    rcases List.mem_append.mp hk with hk | hk
    · by_cases hstop : k = last.stop
      · exact ⟨ts, by simp, by omega, by omega⟩
      · have hle := (h.within k hk).2
        obtain ⟨k', hk', hlt', hle'⟩ := h.linked k hk (by omega)
        exact ⟨k', List.mem_append_left _ hk', hlt', hle'⟩
    · obtain rfl : k = ts := by simpa using hk
      exact absurd hkts (lt_irrefl _)
  · simp [h.counted]

theorem clusterFrom_clustering (hseen : Covers tol last seen) (hasc : Ascending (seen ++ rest))
    (h : clusterFrom tol last rest = .ok cs) : Clustering tol cs (seen ++ rest) := by
  induction rest generalizing last seen cs with
  | nil =>
    obtain rfl := Outcome.pure_eq_ok.mp h
    exact .cons hseen (by simp) .nil
  | cons e rest ih =>
    obtain ⟨ts, count⟩ := e
    have hbehind : ∀ k ∈ ((ts, count) :: rest).map Prod.fst, last.stop < k := by
      intro k hk
      obtain ⟨x, hx, hstop⟩ := List.mem_map.mp hseen.stopMem
      obtain ⟨y, hy, rfl⟩ := List.mem_map.mp hk
      rw [← hstop]
      exact (List.pairwise_append.mp hasc).2.2 x hx y hy
    obtain ⟨gap, hgap, h⟩ := Outcome.bind_eq_ok.mp h
    obtain ⟨-, rfl⟩ := i64?_eq_some.mp (Outcome.checked_eq_ok.mp hgap)
    split at h
    · rename_i hle
      have hjoined := covers_extend count hseen (hbehind ts (by simp)) hle
      rw [List.append_cons] at hasc ⊢
      exact ih hjoined hasc h
    · rename_i hgt
      obtain ⟨more, hmore, h⟩ := Outcome.bind_eq_ok.mp h
      obtain rfl := Outcome.pure_eq_ok.mp h
      have hasc' : Ascending ([(ts, count)] ++ rest) := (List.pairwise_append.mp hasc).2.1
      refine .cons hseen ?_ (ih (covers_single ts count) hasc' hmore)
      intro k hk
      refine ⟨hbehind k hk, ?_⟩
      rcases List.mem_cons.mp hk with rfl | hk
      · omega
      · obtain ⟨y, hy, rfl⟩ := List.mem_map.mp hk
        have hnext := (List.pairwise_cons.mp hasc').1 y hy
        dsimp only at hnext
        omega

theorem clusters_clustering {m : List (ℤ × ℤ)} (hasc : Ascending m)
    (h : clusters tol m = .ok cs) : Clustering tol cs m := by
  cases m with
  | nil =>
    obtain rfl := Outcome.pure_eq_ok.mp h
    exact .nil
  | cons e rest => exact clusterFrom_clustering (covers_single e.1 e.2) hasc h

/-- Grouping only fails where the gap of two neighbouring keys leaves the number range. -/
theorem clusterFrom_ok_iff (hasc : (last.stop :: rest.map Prod.fst).Pairwise (· < ·)) :
    (∃ cs, clusterFrom tol last rest = .ok cs) ↔
      ∀ a b, Neighbours (last.stop :: rest.map Prod.fst) a b → InI64 (b - a) := by
  induction rest generalizing last with
  | nil =>
    refine ⟨fun _ a b hab => ?_, fun _ => ⟨_, rfl⟩⟩
    have ha : a = last.stop := by simpa using hab.left
    have hb : b = last.stop := by simpa using hab.right
    exact absurd hab.lt (by omega)
  | cons e rest ih =>
    obtain ⟨ts, count⟩ := e
    have htail := (List.pairwise_cons.mp hasc).2
    have hsplit : (∀ a b, Neighbours (last.stop :: ts :: rest.map Prod.fst) a b → InI64 (b - a)) ↔
        InI64 (ts - last.stop) ∧
          ∀ a b, Neighbours (ts :: rest.map Prod.fst) a b → InI64 (b - a) := by
      constructor
      · intro h
        exact ⟨h _ _ ((neighbours_cons hasc).mpr (Or.inl ⟨rfl, rfl⟩)),
          fun a b hab => h a b ((neighbours_cons hasc).mpr (Or.inr hab))⟩
      · rintro ⟨hgap, hrest⟩ a b hab
        rcases (neighbours_cons hasc).mp hab with ⟨rfl, rfl⟩ | hab
        · exact hgap
        · exact hrest a b hab
    rw [List.map_cons, hsplit]
    constructor
    · rintro ⟨cs, h⟩
      obtain ⟨gap, hgap, h⟩ := Outcome.bind_eq_ok.mp h
      obtain ⟨hin, rfl⟩ := i64?_eq_some.mp (Outcome.checked_eq_ok.mp hgap)
      refine ⟨hin, ?_⟩
      split at h
      · exact (@ih { last with stop := ts, count := last.count + count } htail).mp ⟨cs, h⟩
      · obtain ⟨more, hmore, -⟩ := Outcome.bind_eq_ok.mp h
        exact (@ih ⟨ts, ts, count⟩ htail).mp ⟨more, hmore⟩
    · rintro ⟨hin, hrest⟩
      have hchecked : (Outcome.checked (subI64 ts last.stop) : Outcome EconError ℤ) =
          .ok (ts - last.stop) := Outcome.checked_eq_ok.mpr (i64?_eq_some.mpr ⟨hin, rfl⟩)
      by_cases hle : ts - last.stop ≤ tol
      · obtain ⟨cs, hcs⟩ :=
          (@ih { last with stop := ts, count := last.count + count } htail).mpr hrest
        refine ⟨cs, Outcome.bind_eq_ok.mpr ⟨_, hchecked, ?_⟩⟩
        rw [if_pos hle]
        exact hcs
      · obtain ⟨cs, hcs⟩ := (@ih ⟨ts, ts, count⟩ htail).mpr hrest
        refine ⟨last :: cs, Outcome.bind_eq_ok.mpr ⟨_, hchecked, ?_⟩⟩
        rw [if_neg hle]
        exact Outcome.bind_eq_ok.mpr ⟨cs, hcs, rfl⟩

theorem clusters_ok_iff {m : List (ℤ × ℤ)} (hasc : Ascending m) :
    (∃ cs, clusters tol m = .ok cs) ↔
      ∀ a b, Neighbours (m.map Prod.fst) a b → InI64 (b - a) := by
  cases m with
  | nil => exact ⟨fun _ a b hab => absurd hab.left (by simp), fun _ => ⟨[], rfl⟩⟩
  | cons e rest =>
    have hkeys : (e.1 :: rest.map Prod.fst).Pairwise (· < ·) := List.pairwise_map.mpr hasc
    have hfirst : (∃ cs, clusterFrom tol ⟨e.1, e.1, e.2⟩ rest = .ok cs) ↔
        ∀ a b, Neighbours (e.1 :: rest.map Prod.fst) a b → InI64 (b - a) := clusterFrom_ok_iff hkeys
    exact hfirst

end Grouping

section Matching

variable {tol : ℤ} {c : Cluster} {cs : List Cluster} {m : List (ℤ × ℤ)}

theorem credited_ok {intent : ℤ × ℤ} {b : Bool} (h : credited tol c intent = .ok b) :
    b = decide (c.Reaches tol intent.1) := by
  obtain ⟨lower, hlower, h⟩ := Outcome.bind_eq_ok.mp h
  obtain ⟨-, rfl⟩ := i64?_eq_some.mp (Outcome.checked_eq_ok.mp hlower)
  split at h
  · rename_i hle
    obtain ⟨upper, hupper, h⟩ := Outcome.bind_eq_ok.mp h
    obtain ⟨-, rfl⟩ := i64?_eq_some.mp (Outcome.checked_eq_ok.mp hupper)
    obtain rfl := Outcome.pure_eq_ok.mp h
    simp [Cluster.Reaches, hle]
  · rename_i hgt
    obtain rfl := Outcome.pure_eq_ok.mp h
    simp [Cluster.Reaches, hgt]

/-- The ends of the cluster can be moved by the tolerance, as far as the intent asks for it. -/
def EndsFit (tol : ℤ) (c : Cluster) (t : ℤ) : Prop :=
  InI64 (c.start - tol) ∧ (c.start - tol ≤ t → InI64 (c.stop + tol))

theorem credited_ok_iff {intent : ℤ × ℤ} :
    (∃ b, credited tol c intent = .ok b) ↔ EndsFit tol c intent.1 := by
  constructor
  · rintro ⟨b, h⟩
    obtain ⟨lower, hlower, h⟩ := Outcome.bind_eq_ok.mp h
    obtain ⟨hin, rfl⟩ := i64?_eq_some.mp (Outcome.checked_eq_ok.mp hlower)
    refine ⟨hin, fun hle => ?_⟩
    rw [if_pos hle] at h
    obtain ⟨upper, hupper, -⟩ := Outcome.bind_eq_ok.mp h
    exact (i64?_eq_some.mp (Outcome.checked_eq_ok.mp hupper)).1
  · rintro ⟨hlower, hupper⟩
    have hlow : (Outcome.checked (subI64 c.start tol) : Outcome EconError ℤ) =
        .ok (c.start - tol) := Outcome.checked_eq_ok.mpr (i64?_eq_some.mpr ⟨hlower, rfl⟩)
    by_cases hle : c.start - tol ≤ intent.1
    · have hupp : (Outcome.checked (addI64 c.stop tol) : Outcome EconError ℤ) =
          .ok (c.stop + tol) := Outcome.checked_eq_ok.mpr (i64?_eq_some.mpr ⟨hupper hle, rfl⟩)
      refine ⟨decide (intent.1 ≤ c.stop + tol), Outcome.bind_eq_ok.mpr ⟨_, hlow, ?_⟩⟩
      rw [if_pos hle]
      exact Outcome.bind_eq_ok.mpr ⟨_, hupp, rfl⟩
    · refine ⟨false, Outcome.bind_eq_ok.mpr ⟨_, hlow, ?_⟩⟩
      rw [if_neg hle]
      rfl

theorem matchedIntents_ok {n : ℤ} (h : matchedIntents tol c m = .ok n) :
    n = ((m.filter fun e => decide (c.Reaches tol e.1)).map Prod.snd).sum := by
  induction m generalizing n with
  | nil => exact (Outcome.pure_eq_ok.mp h).symm
  | cons e m ih =>
    obtain ⟨b, hb, h⟩ := Outcome.bind_eq_ok.mp h
    obtain ⟨others, hothers, h⟩ := Outcome.bind_eq_ok.mp h
    obtain rfl := Outcome.pure_eq_ok.mp h
    rw [credited_ok hb, ih hothers]
    by_cases hreach : c.Reaches tol e.1
    · simp [hreach]
    · simp [hreach]

theorem matchedIntents_ok_iff :
    (∃ n, matchedIntents tol c m = .ok n) ↔ ∀ e ∈ m, EndsFit tol c e.1 := by
  induction m with
  | nil => exact ⟨fun _ e he => by simp at he, fun _ => ⟨0, rfl⟩⟩
  | cons e m ih =>
    rw [List.forall_mem_cons, ← credited_ok_iff, ← ih]
    constructor
    · rintro ⟨n, h⟩
      obtain ⟨b, hb, h⟩ := Outcome.bind_eq_ok.mp h
      obtain ⟨others, hothers, -⟩ := Outcome.bind_eq_ok.mp h
      exact ⟨⟨b, hb⟩, others, hothers⟩
    · rintro ⟨⟨b, hb⟩, others, hothers⟩
      exact ⟨_, Outcome.bind_eq_ok.mpr ⟨b, hb, Outcome.bind_eq_ok.mpr ⟨others, hothers, rfl⟩⟩⟩

/-- The intents in reach of a cluster, counted by their times. -/
def inReach (tol : ℤ) (c : Cluster) (ts : List ℤ) : ℕ := ts.countP fun t => decide (c.Reaches tol t)

/-- No mismatch is reported exactly when every cluster has as many intents as changes. -/
theorem mismatchedCycles_ok {ts : List ℤ} {ms : List Mismatch}
    (h : mismatchedCycles tol (tally ts) cs = .ok ms) :
    ms = [] ↔ ∀ c ∈ cs, (inReach tol c ts : ℤ) = c.count := by
  induction cs generalizing ms with
  | nil =>
    obtain rfl := Outcome.pure_eq_ok.mp h
    simp
  | cons c cs ih =>
    obtain ⟨n, hn, h⟩ := Outcome.bind_eq_ok.mp h
    obtain ⟨others, hothers, h⟩ := Outcome.bind_eq_ok.mp h
    obtain rfl := Outcome.pure_eq_ok.mp h
    have hcount : n = (inReach tol c ts : ℤ) :=
      (matchedIntents_ok hn).trans (sum_tally fun t => decide (c.Reaches tol t))
    rw [List.forall_mem_cons, ← hcount, ← ih hothers]
    by_cases heq : n = c.count
    · simp [heq]
    · simp [heq]

theorem mismatchedCycles_ok_iff :
    (∃ ms, mismatchedCycles tol m cs = .ok ms) ↔ ∀ c ∈ cs, ∀ e ∈ m, EndsFit tol c e.1 := by
  induction cs with
  | nil => exact ⟨fun _ c hc => by simp at hc, fun _ => ⟨[], rfl⟩⟩
  | cons c cs ih =>
    rw [List.forall_mem_cons, ← matchedIntents_ok_iff, ← ih]
    constructor
    · rintro ⟨ms, h⟩
      obtain ⟨n, hn, h⟩ := Outcome.bind_eq_ok.mp h
      obtain ⟨others, hothers, -⟩ := Outcome.bind_eq_ok.mp h
      exact ⟨⟨n, hn⟩, others, hothers⟩
    · rintro ⟨⟨n, hn⟩, others, hothers⟩
      exact ⟨_, Outcome.bind_eq_ok.mpr ⟨n, hn, Outcome.bind_eq_ok.mpr ⟨others, hothers, rfl⟩⟩⟩

end Matching

section Judgement

variable {events : List LedgerEvent} {feeChanges : List Json} {now window tol : ℤ}

def judgedFrom (events : List LedgerEvent) (now windowSeconds : ℤ) : ℤ :=
  windowStart events (now - windowSeconds)

def judged (events : List LedgerEvent) (feeChanges : List Json) (now windowSeconds : ℤ) : List ℤ :=
  changeTimes feeChanges (judgedFrom events now windowSeconds)

/-- Each fee intent is in reach of at most one cluster of judged changes. -/
def CreditsOnce (events : List LedgerEvent) (feeChanges : List Json) (now windowSeconds tol : ℤ) :
    Prop :=
  ∀ cs, clusters tol (tally (judged events feeChanges now windowSeconds)) = .ok cs →
    ∀ t ∈ intentTimes events, cs.Pairwise fun c c' => ¬ (c.Reaches tol t ∧ c'.Reaches tol t)

/-- The judged changes and the fee intents of the judged time are the same times, as often. -/
def OwnIntents (events : List LedgerEvent) (feeChanges : List Json) (now windowSeconds : ℤ) :
    Prop :=
  ((intentTimes events).filter (judgedFrom events now windowSeconds ≤ ·)).Perm
    (judged events feeChanges now windowSeconds)

/-- What it takes for such changes to be found complete: there are intents, the arithmetic stays
in range, the tolerance is not negative, and no intent of an earlier time is within the tolerance
in front of a judged change. -/
structure Judgeable (events : List LedgerEvent) (feeChanges : List Json)
    (now windowSeconds tol : ℤ) : Prop where
  intents : intentTimes events ≠ []
  start : InI64 (now - windowSeconds)
  tolerance : 0 ≤ tol ∨ judged events feeChanges now windowSeconds = []
  gaps : ∀ a b, Neighbours (judged events feeChanges now windowSeconds) a b → InI64 (b - a)
  ends : ∀ k ∈ judged events feeChanges now windowSeconds, InI64 (k - tol) ∧ InI64 (k + tol)
  clear : ∀ t ∈ intentTimes events, t < judgedFrom events now windowSeconds →
    ∀ k ∈ judged events feeChanges now windowSeconds, t < k - tol

theorem tally_isEmpty {ts : List ℤ} : (tally ts).isEmpty = true ↔ ts = [] := by
  rw [List.isEmpty_iff]
  constructor
  · intro h
    cases ts with
    | nil => rfl
    | cons t ts =>
      have hmem : t ∈ (tally (t :: ts)).map Prod.fst := mem_tally.mpr List.mem_cons_self
      rw [h] at hmem
      cases hmem
  · rintro rfl
    rfl

theorem completeness_ok {r : Completeness}
    (h : feeIntentCompleteness events feeChanges now window tol = .ok r) :
    intentTimes events = [] ∧ r = .noIntentData ∨
      intentTimes events ≠ [] ∧ InI64 (now - window) ∧ ∃ cs ms,
        clusters tol (tally (judged events feeChanges now window)) = .ok cs ∧
        mismatchedCycles tol (tally (intentTimes events)) cs = .ok ms ∧
        r = .ok (judgedFrom events now window) cs.length ms := by
  unfold feeIntentCompleteness at h
  dsimp only at h
  split at h
  · rename_i hempty
    exact Or.inl ⟨tally_isEmpty.mp hempty, (Outcome.pure_eq_ok.mp h).symm⟩
  · rename_i hsome
    obtain ⟨start, hstart, h⟩ := Outcome.bind_eq_ok.mp h
    obtain ⟨hin, rfl⟩ := i64?_eq_some.mp (Outcome.checked_eq_ok.mp hstart)
    obtain ⟨cs, hcs, h⟩ := Outcome.bind_eq_ok.mp h
    obtain ⟨ms, hms, h⟩ := Outcome.bind_eq_ok.mp h
    obtain rfl := Outcome.pure_eq_ok.mp h
    exact Or.inr ⟨fun hnil => hsome (tally_isEmpty.mpr hnil), hin, cs, ms, hcs, hms, rfl⟩

/-- The answer is complete exactly when each cluster has as many intents in reach as changes. -/
theorem complete_iff :
    (∃ r, feeIntentCompleteness events feeChanges now window tol = .ok r ∧
        r.complete = some true) ↔
      intentTimes events ≠ [] ∧ InI64 (now - window) ∧
        ∃ cs, clusters tol (tally (judged events feeChanges now window)) = .ok cs ∧
          (∀ c ∈ cs, ∀ t ∈ intentTimes events, EndsFit tol c t) ∧
          ∀ c ∈ cs, (inReach tol c (intentTimes events) : ℤ) = c.count := by
  have hfits : ∀ cs : List Cluster, (∀ c ∈ cs, ∀ t ∈ intentTimes events, EndsFit tol c t) ↔
      ∃ ms, mismatchedCycles tol (tally (intentTimes events)) cs = .ok ms := by
    intro cs
    rw [mismatchedCycles_ok_iff]
    constructor
    · intro h c hc e he
      exact h c hc e.1 (mem_tally.mp (List.mem_map_of_mem he))
    · intro h c hc t ht
      obtain ⟨e, he, rfl⟩ := List.mem_map.mp (mem_tally.mpr ht)
      exact h c hc e he
  constructor
  · rintro ⟨r, h, hcomplete⟩
    rcases completeness_ok h with ⟨-, rfl⟩ | ⟨hsome, hin, cs, ms, hcs, hms, rfl⟩
    · cases hcomplete
    · have hempty : ms = [] := by
        simpa [Completeness.complete] using hcomplete
      exact ⟨hsome, hin, cs, hcs, (hfits cs).mpr ⟨ms, hms⟩, (mismatchedCycles_ok hms).mp hempty⟩
  · rintro ⟨hsome, hin, cs, hcs, hends, hcounts⟩
    obtain ⟨ms, hms⟩ := (hfits cs).mp hends
    have hempty := (mismatchedCycles_ok hms).mpr hcounts
    refine ⟨.ok (judgedFrom events now window) cs.length ms,
      ?_, by simp [Completeness.complete, hempty]⟩
    have hstart : (Outcome.checked (subI64 now window) : Outcome EconError ℤ) =
        .ok (now - window) := Outcome.checked_eq_ok.mpr (i64?_eq_some.mpr ⟨hin, rfl⟩)
    unfold feeIntentCompleteness
    rw [if_neg fun h => hsome (tally_isEmpty.mp h)]
    exact Outcome.bind_eq_ok.mpr ⟨_, hstart, Outcome.bind_eq_ok.mpr
      ⟨cs, hcs, Outcome.bind_eq_ok.mpr ⟨ms, hms, rfl⟩⟩⟩

theorem clustering_judged {cs : List Cluster}
    (h : clusters tol (tally (judged events feeChanges now window)) = .ok cs) :
    Clustering tol cs (tally (judged events feeChanges now window)) :=
  clusters_clustering ascending_tally h

theorem count_eq {cs : List Cluster} {c : Cluster} {ks : List ℤ} (h : Clustering tol cs (tally ks))
    (hc : c ∈ cs) : c.count = (ks.countP fun k => decide (c.Spans k) : ℤ) :=
  (h.counted hc).trans (sum_tally fun k => decide (c.Spans k))

/-- The answer only counts an intent once, and so never finds more changes than intents complete,
exactly when no intent straddles two neighbouring judged changes. -/
theorem credits_once_iff {r : Completeness}
    (h : feeIntentCompleteness events feeChanges now window tol = .ok r) :
    (CreditsOnce events feeChanges now window tol ∧ (r.complete = some true →
        (judged events feeChanges now window).length ≤ (intentTimes events).length)) ↔
      ∀ t ∈ intentTimes events, ¬ Straddles tol (judged events feeChanges now window) t := by
  have hkeys : ∀ k, k ∈ (tally (judged events feeChanges now window)).map Prod.fst ↔
      k ∈ judged events feeChanges now window := fun k => mem_tally
  constructor
  · rintro ⟨honce, -⟩ t ht
    rcases completeness_ok h with ⟨hnil, -⟩ | ⟨-, -, cs, ms, hcs, -, -⟩
    · rw [hnil] at ht
      cases ht
    · rw [← straddles_congr hkeys]
      exact (clustering_judged hcs).not_straddles (honce cs hcs t ht)
  · intro hnone
    have honce : CreditsOnce events feeChanges now window tol := by
      intro cs hcs t ht
      apply (clustering_judged hcs).reached_once
      rw [straddles_congr hkeys]
      exact hnone t ht
    refine ⟨honce, fun hcomplete => ?_⟩
    obtain ⟨-, -, cs, hcs, -, hcounts⟩ := complete_iff.mp ⟨r, h, hcomplete⟩
    have hclustering := clustering_judged hcs
    have htotal :
        (cs.map Cluster.count).sum = ((judged events feeChanges now window).length : ℤ) := by
      have hall := @sum_tally (judged events feeChanges now window) fun _ => true
      rw [List.filter_true, List.countP_true] at hall
      exact hclustering.total.trans hall
    have hmatched : cs.map Cluster.count =
        cs.map fun c => (inReach tol c (intentTimes events) : ℤ) :=
      List.map_congr_left fun c hc => (hcounts c hc).symm
    have hexcl : ∀ t ∈ intentTimes events, cs.Pairwise fun c c' =>
        ¬ (decide (c.Reaches tol t) = true ∧ decide (c'.Reaches tol t) = true) := by
      simpa using honce cs hcs
    have hle := sum_countP_le hexcl
    rw [hmatched] at htotal
    unfold inReach at htotal
    omega

/-- Where the intents of the judged time are the changes, a cluster has one intent in reach for
each of its changes, and besides the earlier intents in reach. -/
theorem inReach_eq {cs : List Cluster} {c : Cluster}
    (hown : OwnIntents events feeChanges now window)
    (htol : 0 ≤ tol) (h : Clustering tol cs (tally (judged events feeChanges now window)))
    (hc : c ∈ cs) :
    (inReach tol c (intentTimes events) : ℤ) = c.count +
      inReach tol c ((intentTimes events).filter (· < judgedFrom events now window)) := by
  have hearly : ((intentTimes events).filter fun t => !decide (judgedFrom events now window ≤ t)) =
      (intentTimes events).filter (· < judgedFrom events now window) := by
    apply List.filter_congr
    intro t _
    simp [← decide_not]
  have hsplit : inReach tol c (intentTimes events) =
      inReach tol c ((intentTimes events).filter (judgedFrom events now window ≤ ·)) +
        inReach tol c ((intentTimes events).filter (· < judgedFrom events now window)) := by
    rw [← hearly]
    exact List.countP_eq_countP_filter_add _ _ _
  have hinside : inReach tol c
      ((intentTimes events).filter (judgedFrom events now window ≤ ·)) =
      (judged events feeChanges now window).countP fun k => decide (c.Spans k) := by
    unfold inReach
    rw [hown.countP_eq]
    apply List.countP_congr
    intro k hk
    simpa using h.reaches_key_iff htol hc (mem_tally.mpr hk)
  rw [hsplit, hinside, count_eq h hc]
  omega

theorem inI64_changeTime (row : Json) : InI64 (changeTime row) := by
  unfold changeTime
  cases hrow : (row.get "timestamp").bind Json.asI64 with
  | none => decide
  | some n =>
    obtain ⟨j, -, hj⟩ := Option.bind_eq_some_iff.mp hrow
    cases j with
    | int m =>
      simp only [Json.asI64, Option.ite_none_right_eq_some] at hj
      obtain ⟨hrange, hm⟩ := hj
      simp only [Option.some.injEq] at hm
      subst hm
      unfold InI64
      simp only [Option.getD_some]
      omega
    | _ => cases hj

theorem inI64_judged {k : ℤ} (hk : k ∈ judged events feeChanges now window) : InI64 k := by
  obtain ⟨row, -, rfl⟩ := List.mem_map.mp (List.mem_filter.mp hk).1
  exact inI64_changeTime row

theorem judgedFrom_le {k : ℤ} (hk : k ∈ judged events feeChanges now window) :
    judgedFrom events now window ≤ k := by
  simpa using (List.mem_filter.mp hk).2

theorem mem_intentTimes {k : ℤ} (hown : OwnIntents events feeChanges now window)
    (hk : k ∈ judged events feeChanges now window) : k ∈ intentTimes events :=
  (List.mem_filter.mp (hown.mem_iff.mpr hk)).1

theorem judgeable_of_complete (hown : OwnIntents events feeChanges now window)
    (hcomplete : ∃ r, feeIntentCompleteness events feeChanges now window tol = .ok r ∧
      r.complete = some true) : Judgeable events feeChanges now window tol := by
  obtain ⟨hsome, hin, cs, hcs, hends, hcounts⟩ := complete_iff.mp hcomplete
  have hclustering := clustering_judged hcs
  have hmem : ∀ c ∈ cs, c.start ∈ judged events feeChanges now window ∧
      c.stop ∈ judged events feeChanges now window := by
    intro c hc
    have h := hclustering.ends_mem hc
    exact ⟨mem_tally.mp h.1, mem_tally.mp h.2⟩
  have hspanned : ∀ k ∈ judged events feeChanges now window, ∃ c ∈ cs, c.Spans k :=
    fun k hk => hclustering.spanned (mem_tally.mpr hk)
  have htol : 0 ≤ tol ∨ judged events feeChanges now window = [] := by
    by_contra hneg
    rw [not_or, not_le] at hneg
    obtain ⟨k, hk⟩ := List.exists_mem_of_ne_nil _ hneg.2
    obtain ⟨c, hc, hspans⟩ := hspanned k hk
    have hsingle := hclustering.single hneg.1 hc
    have hnone : inReach tol c (intentTimes events) = 0 := by
      rw [inReach, List.countP_eq_zero]
      intro t _ hreach
      have hreach' := of_decide_eq_true hreach
      unfold Cluster.Reaches at hreach'
      omega
    have hone : 0 < (judged events feeChanges now window).countP fun k => decide (c.Spans k) :=
      List.countP_pos_iff.mpr ⟨k, hk, decide_eq_true hspans⟩
    have hcount := hcounts c hc
    rw [hnone, count_eq hclustering hc] at hcount
    omega
  refine ⟨hsome, hin, htol, ?_, ?_, ?_⟩
  · have hgaps := (clusters_ok_iff ascending_tally).mp ⟨cs, hcs⟩
    intro a b hab
    exact hgaps a b ((neighbours_congr fun k => mem_tally).mpr hab)
  · intro k hk
    obtain ⟨c, hc, hspans⟩ := hspanned k hk
    have hnonneg : 0 ≤ tol := htol.resolve_right (List.ne_nil_of_mem hk)
    obtain ⟨hlower, hupper⟩ := hends c hc _ (mem_intentTimes hown (hmem c hc).1)
    have hupper' := hupper (by omega)
    have hk' := inI64_judged hk
    unfold Cluster.Spans at hspans
    unfold InI64 at *
    omega
  · intro t ht hearly k hk
    have hnonneg : 0 ≤ tol := htol.resolve_right (List.ne_nil_of_mem hk)
    by_contra hnear
    -- The first cluster would have the earlier intent in reach.
    obtain ⟨c', hc', hspans'⟩ := hspanned k hk
    cases cs with
    | nil => cases hc'
    | cons c cs =>
      have hc := @List.mem_cons_self _ c cs
      have hfirst := hclustering.first_le (mem_tally.mpr hk)
      have hsince := judgedFrom_le (hmem c hc).1
      have hstart := hclustering.start_le hc
      have hreach : c.Reaches tol t := by
        unfold Cluster.Reaches
        omega
      have hone : 0 < inReach tol c
          ((intentTimes events).filter (· < judgedFrom events now window)) := by
        apply List.countP_pos_iff.mpr
        exact ⟨t, List.mem_filter.mpr ⟨ht, by simpa using hearly⟩, decide_eq_true hreach⟩
      have heq := inReach_eq hown hnonneg hclustering hc
      have hcount := hcounts c hc
      omega

theorem complete_of_judgeable (hown : OwnIntents events feeChanges now window)
    (h : Judgeable events feeChanges now window tol) :
    ∃ r, feeIntentCompleteness events feeChanges now window tol = .ok r ∧
      r.complete = some true := by
  have hgaps : ∀ a b, Neighbours ((tally (judged events feeChanges now window)).map Prod.fst) a b →
      InI64 (b - a) := fun a b hab => h.gaps a b ((neighbours_congr fun k => mem_tally).mp hab)
  obtain ⟨cs, hcs⟩ := (@clusters_ok_iff tol _ ascending_tally).mpr hgaps
  have hclustering := clustering_judged hcs
  refine complete_iff.mpr ⟨h.intents, h.start, cs, hcs, ?_, ?_⟩
  · intro c hc t _
    have hmem := hclustering.ends_mem hc
    exact ⟨(h.ends _ (mem_tally.mp hmem.1)).1, fun _ => (h.ends _ (mem_tally.mp hmem.2)).2⟩
  · intro c hc
    have hstart := mem_tally.mp (hclustering.ends_mem hc).1
    have hnonneg : 0 ≤ tol := h.tolerance.resolve_right (List.ne_nil_of_mem hstart)
    have hnone : inReach tol c
        ((intentTimes events).filter (· < judgedFrom events now window)) = 0 := by
      rw [inReach, List.countP_eq_zero]
      intro t ht hreach
      obtain ⟨ht, hearly⟩ := List.mem_filter.mp ht
      have hclear := h.clear t ht (by simpa using hearly) _ hstart
      have hlower := (of_decide_eq_true hreach).1
      omega
    have heq := inReach_eq hown hnonneg hclustering hc
    omega

/-- The answer credits each intent once, and so never more changes than intents, exactly when no
intent straddles two neighbouring judged changes; and it finds changes with intents of their own
complete exactly when these are judgeable. -/
theorem completeness_iff :
    (∀ r, feeIntentCompleteness events feeChanges now window tol = .ok r →
      (CreditsOnce events feeChanges now window tol ∧ (r.complete = some true →
          (judged events feeChanges now window).length ≤ (intentTimes events).length) ↔
        ∀ t ∈ intentTimes events, ¬ Straddles tol (judged events feeChanges now window) t)) ∧
    ((OwnIntents events feeChanges now window →
        ∃ r, feeIntentCompleteness events feeChanges now window tol = .ok r ∧
          r.complete = some true) ↔
      (OwnIntents events feeChanges now window → Judgeable events feeChanges now window tol)) := by
  refine ⟨fun r h => credits_once_iff h, ?_, ?_⟩
  · intro h hown
    exact judgeable_of_complete hown (h hown)
  · intro h hown
    exact complete_of_judgeable hown (h hown)

end Judgement

section Samples

def feeIntent (cycleId : String) (atTime : ℤ) : LedgerEvent :=
  ⟨.intentProposed, "i", "k", cycleId, atTime, ∅, .obj []⟩

def feeChange (ts : ℤ) : Json := .obj [("timestamp", .int ts)]

def twoIntents : List LedgerEvent :=
  [feeIntent "fee-cycle-100" 100, feeIntent "fee-cycle-115" 115]

def twoChanges : List Json := [feeChange 100, feeChange 115]

theorem two_runs :
    feeIntentCompleteness twoIntents twoChanges 1000 900 10 = .ok (.ok 100 2 []) := by
  decide

theorem two_judged : judged twoIntents twoChanges 1000 900 = [100, 115] := by decide

theorem two_intentTimes : intentTimes twoIntents = [100, 115] := by decide

theorem two_neighbours {a b : ℤ} (h : Neighbours (judged twoIntents twoChanges 1000 900) a b) :
    a = 100 ∧ b = 115 := by
  obtain ⟨ha, hb, hlt, -⟩ := h
  rw [two_judged] at ha hb
  simp only [List.mem_cons, List.not_mem_nil, or_false] at ha hb
  omega

theorem two_judgeable : Judgeable twoIntents twoChanges 1000 900 10 where
  intents := by decide
  start := by decide
  tolerance := .inl (by decide)
  gaps a b hab := by
    obtain ⟨rfl, rfl⟩ := two_neighbours hab
    decide
  ends := by decide
  clear := by decide

/-- Two changes a little more than the tolerance apart, each with its intent, are complete, and
each intent is counted once. -/
theorem completeness_neighbours :
    (CreditsOnce twoIntents twoChanges 1000 900 10 ∧
      (judged twoIntents twoChanges 1000 900).length ≤ (intentTimes twoIntents).length) ∧
    ∃ r, feeIntentCompleteness twoIntents twoChanges 1000 900 10 = .ok r ∧
      r.complete = some true := by
  have hstraddles : ∀ t ∈ intentTimes twoIntents,
      ¬ Straddles 10 (judged twoIntents twoChanges 1000 900) t := by
    rintro t ht ⟨a, b, hab, -, hfrom, hto⟩
    obtain ⟨rfl, rfl⟩ := two_neighbours hab
    rw [two_intentTimes] at ht
    simp only [List.mem_cons, List.not_mem_nil, or_false] at ht
    omega
  have honce := (completeness_iff.1 _ two_runs).mpr hstraddles
  have hown : OwnIntents twoIntents twoChanges 1000 900 :=
    List.Perm.of_eq (by decide)
  exact ⟨⟨honce.1, honce.2 rfl⟩, completeness_iff.2.mpr (fun _ => two_judgeable) hown⟩

/-- An intent between two changes is counted for both, and three changes with two intents are
found complete. -/
theorem completeness_counts_twice :
    ¬ ∀ (events : List LedgerEvent) (feeChanges : List Json) (now window tol : ℤ)
      (r : Completeness), feeIntentCompleteness events feeChanges now window tol = .ok r →
        r.complete = some true →
        (judged events feeChanges now window).length ≤ (intentTimes events).length := by
  intro h
  have hrun : feeIntentCompleteness [feeIntent "fee-cycle-100" 100, feeIntent "fee-cycle-207" 207]
      [feeChange 100, feeChange 200, feeChange 215] 1000 900 10 = .ok (.ok 100 3 []) := by
    decide
  have hle := h _ _ _ _ _ _ hrun rfl
  revert hle
  decide

end Samples

end FeeCompleteness
