import RevenueOps.CostEntries
import RevenueOps.CostFates
import RevenueOps.CostSweeps
import RevenueOps.TaggedTrace

/-! Runs of the entries, interleaved in any order: a row whose payment is reported settled with a
fee is charged once, by the entry that the report reached, and no other row is charged. -/
namespace CostRuns

open FallibleState JsonValue RustText RouteExecutor RebalanceEngine RebalanceFacade
open EngineTrail HeldReservations CostBookings CostHandlings CostEntries CostFates CostSweeps
open Defibrillator ManualRebalance TaggedTrace

section Entries

/-- One call: a worker of a cycle, an explicit, a manual or a diagnostic rebalance, or a sweep,
which a cycle starts with, over the rows that the store lists to it. -/
inductive Entry where
  | worker (pair : PairCandidate)
  | explicit (config : FacadeConfig) (candidate : RebalanceCandidate) (enforceBudget : Bool)
    (opts : ExecuteOpts)
  | manual (config : ManualConfig) (fromChannel toChannel : String) (amountSats : ℤ)
    (maxFeeSats : Option ℤ) (force : Bool)
  | diagnostic (config : DiagnosticConfig) (channelId : String)
  | sweep (rows : List HistoryRow)

def Entry.accountCosts : Entry → Bool
  | .worker _ => true
  | .explicit .. => false
  | .manual .. => false
  | .diagnostic .. => true
  | .sweep _ => false

variable {ω : Type}

def Entry.run [UnicodeCase] (deps : EngineDeps ω) (facade : FacadeDeps ω) : Entry → Engine ω Unit
  | .worker pair => do
    let _ ← executePair deps pair true true none
    pure ()
  | .explicit config candidate enforceBudget opts => do
    let _ ← executeRebalance deps config candidate enforceBudget opts
    pure ()
  | .manual config fromChannel toChannel amountSats maxFeeSats force => do
    let _ ← manualRebalance deps facade config fromChannel toChannel amountSats maxFeeSats force
    pure ()
  | .diagnostic config channelId => do
    let _ ← diagnosticRebalance deps facade config channelId
    pure ()
  | .sweep _ => do
    let _ ← reconcilePendingSettlements deps
    pure ()

/-- The calls of an entry that returns, whatever its seams reply. -/
def Entry.Leaves [UnicodeCase] (entry : Entry) (log : List EngineCall) : Prop :=
  ∃ (ω : Type) (deps : EngineDeps ω) (facade : FacadeDeps ω) (s t : EngineState ω),
    entry.run deps facade s = (.ok (), t) ∧ t.log = s.log ++ log ∧
      ∀ rows, entry = .sweep rows → (deps.pendingSettlementRows s.world).1 = rows

theorem logs_discard {α : Type} {b : Bounds} {m : Engine ω α} {P : List EngineCall → Prop}
    (h : Logs b m fun _ calls => P calls) :
    Logs b (do let _ ← m; pure ()) fun _ calls => P calls := by
  refine Logs.bind h fun _ calls hcalls => Logs.pure ?_
  rwa [List.append_nil]

theorem fees_entry [UnicodeCase] (deps : EngineDeps ω) (facade : FacadeDeps ω) {entry : Entry}
    (h : ∀ rows, entry ≠ .sweep rows) :
    Logs .none (entry.run deps facade) fun _ calls => Handles entry.accountCosts calls := by
  cases entry with
  | worker pair => exact logs_discard (fees_worker deps pair)
  | explicit config candidate enforceBudget opts =>
    exact logs_discard (fees_executeRebalance deps config candidate enforceBudget opts)
  | manual config fromChannel toChannel amountSats maxFeeSats force =>
    exact logs_discard (fees_manualRebalance deps facade config _ _ _ _ _)
  | diagnostic config channelId =>
    exact logs_discard (fees_diagnosticRebalance deps facade config channelId)
  | sweep rows => exact absurd rfl (h rows)

theorem Entry.Leaves.handles [UnicodeCase] {entry : Entry} {log : List EngineCall}
    (h : entry.Leaves log) (hentry : ∀ rows, entry ≠ .sweep rows) :
    Handles entry.accountCosts log := by
  obtain ⟨ω, deps, facade, s, t, hrun, hlog, -⟩ := h
  obtain ⟨calls, hcalls, hhandles⟩ := (fees_entry deps facade hentry).run hrun
  rwa [List.append_cancel_left (hlog.symm.trans hcalls)]

theorem Entry.Leaves.swept [UnicodeCase] {rows : List HistoryRow} {log : List EngineCall}
    (h : (Entry.sweep rows).Leaves log) : CostSweeps.Swept rows log := by
  obtain ⟨ω, deps, facade, s, t, hrun, hlog, hrows⟩ := h
  have hread := hrows rows rfl
  have hsweep : (do let _ ← reconcileRows deps rows none 0; pure () : Engine ω Unit)
      { s with world := (deps.pendingSettlementRows s.world).2 } = (.ok (), t) := by
    rw [← hread]
    exact hrun
  obtain ⟨calls, hcalls, hswept⟩ := (logs_discard (fees_reconcileRows deps rows none 0)).run hsweep
  rwa [List.append_cancel_left (hlog.symm.trans hcalls)]

end Entries

section Traces

/-- A sweep reads the parked rows of the store; every other act is a logged call. -/
inductive Act where
  | read (rows : List HistoryRow)
  | call (c : EngineCall)

def Act.logged : Act → Option EngineCall
  | .read _ => none
  | .call c => some c

/-- The acts of entries that run at once, each with the entry it belongs to. -/
abbrev Trace := List (ℕ × Act)

def calls (trace : Trace) : List EngineCall := trace.filterMap fun step => step.2.logged

def logOf (i : ℕ) (trace : Trace) : List EngineCall := (project i trace).filterMap Act.logged

def Entry.acts : Entry → List EngineCall → List Act
  | .sweep rows, log => .read rows :: log.map .call
  | _, log => log.map .call

variable {i j k : ℕ} {id : ℤ} {act : Act} {c : EngineCall} {trace more rest : Trace}

@[simp] theorem calls_append : calls (trace ++ more) = calls trace ++ calls more :=
  List.filterMap_append

@[simp] theorem logOf_append : logOf i (trace ++ more) = logOf i trace ++ logOf i more := by
  unfold logOf
  rw [project_append, List.filterMap_append]

theorem mem_logOf : c ∈ logOf i trace ↔ (i, .call c) ∈ trace := by
  unfold logOf
  rw [List.mem_filterMap]
  constructor
  · rintro ⟨act, hact, hc⟩
    cases act with
    | read rows => cases hc
    | call d =>
      cases hc
      exact mem_project.mp hact
  · exact fun h => ⟨.call c, mem_project.mpr h, rfl⟩

theorem mem_calls : c ∈ calls trace ↔ ∃ i, c ∈ logOf i trace := by
  simp only [mem_logOf]
  unfold calls
  rw [List.mem_filterMap]
  constructor
  · rintro ⟨⟨i, act⟩, hact, hc⟩
    cases act with
    | read rows => cases hc
    | call d =>
      cases hc
      exact ⟨i, hact⟩
  · rintro ⟨i, h⟩
    exact ⟨_, h, rfl⟩

theorem filterMap_logged (log : List EngineCall) :
    (log.map Act.call).filterMap Act.logged = log := by
  rw [List.filterMap_map]
  exact List.filterMap_some

theorem logged_acts (entry : Entry) (log : List EngineCall) :
    (entry.acts log).filterMap Act.logged = log := by
  cases entry with
  | sweep rows => exact filterMap_logged log
  | _ => exact filterMap_logged log

theorem calls_cons : calls ((i, act) :: trace) = act.logged.toList ++ calls trace := by
  cases act <;> rfl

theorem logOf_cons_self : logOf i ((i, act) :: trace) = act.logged.toList ++ logOf i trace := by
  unfold logOf
  rw [project_cons_self]
  cases act <;> rfl

theorem logOf_cons_of_ne (h : j ≠ i) : logOf i ((j, act) :: trace) = logOf i trace := by
  unfold logOf
  rw [project_cons_of_ne h]

/-- Where only one entry parks the row, it parks it as often as the whole run does. -/
theorem parkings_calls (h : ∀ i ≠ k, parkings id (logOf i trace) = 0) :
    parkings id (calls trace) = parkings id (logOf k trace) := by
  induction trace with
  | nil => rfl
  | cons step trace ih =>
    obtain ⟨j, act⟩ := step
    have hrest : parkings id (calls trace) = parkings id (logOf k trace) := by
      apply ih
      intro i hi
      have hzero := h i hi
      by_cases hj : j = i
      · subst hj
        rw [logOf_cons_self, parkings_append] at hzero
        omega
      · rwa [logOf_cons_of_ne hj] at hzero
    rw [calls_cons, parkings_append, hrest]
    by_cases hj : j = k
    · subst hj
      rw [logOf_cons_self, parkings_append]
    · have hzero := h j hj
      rw [logOf_cons_self, parkings_append] at hzero
      rw [logOf_cons_of_ne hj]
      omega

theorem mem_insertions {log : List EngineCall} :
    id ∈ insertions log ↔ ∃ row, .insertOrAdoptHistory row id ∈ log := by
  unfold insertions
  rw [List.mem_filterMap]
  constructor
  · rintro ⟨c, hc, hid⟩
    cases c
    case insertOrAdoptHistory row i =>
      cases hid
      exact ⟨row, hc⟩
    all_goals cases hid
  · rintro ⟨row, hc⟩
    exact ⟨_, hc, rfl⟩

theorem owner_unique (hfresh : (insertions (calls trace)).Nodup)
    (hi : id ∈ insertions (logOf i trace)) (hj : id ∈ insertions (logOf j trace)) : i = j := by
  obtain ⟨row, hrow⟩ := mem_insertions.mp hi
  obtain ⟨row', hrow'⟩ := mem_insertions.mp hj
  unfold insertions calls at hfresh
  rw [List.filterMap_filterMap] at hfresh
  have hsame := eq_of_nodup_filterMap hfresh (mem_logOf.mp hrow) (mem_logOf.mp hrow') rfl rfl
  exact congrArg Prod.fst hsame

theorem logOf_sublist (i : ℕ) (trace : Trace) : (logOf i trace).Sublist (calls trace) := by
  induction trace with
  | nil => exact List.Sublist.refl _
  | cons step trace ih =>
    obtain ⟨j, act⟩ := step
    rw [calls_cons]
    by_cases hj : j = i
    · subst hj
      rw [logOf_cons_self]
      exact ih.append_left _
    · rw [logOf_cons_of_ne hj]
      exact ih.trans (List.sublist_append_right _ _)

theorem parkings_ne_zero {log : List EngineCall} {e hash : String}
    (h : .updateHistoryPendingSettlement id e hash ∈ log) : parkings id log ≠ 0 := by
  intro hnone
  have hcount := List.countP_eq_zero.mp hnone _ h
  simp at hcount

/-- A row still parked after calls that do not park it was parked before them, and they do not
write it. -/
theorem parked_append {cs ds : List EngineCall} {hash : String} (hnone : parkings id ds = 0)
    (h : Parked (cs ++ ds) id hash) :
    Parked cs id hash ∧ ∀ c ∈ ds, ¬ WritesRow id c := by
  obtain ⟨hpos, before, e, after, heq, hafter⟩ := h
  have hno : .updateHistoryPendingSettlement id e hash ∉ ds :=
    fun hmem => parkings_ne_zero hmem hnone
  rcases List.append_eq_append_iff.mp heq with ⟨rest, rfl, hds⟩ | ⟨rest, rfl, hrest⟩
  · rw [hds] at hno
    exact absurd (List.mem_append_right rest List.mem_cons_self) hno
  · cases rest with
    | nil =>
      rw [List.nil_append] at hrest
      rw [← hrest] at hno
      exact absurd List.mem_cons_self hno
    | cons c rest =>
      obtain ⟨rfl, rfl⟩ := List.cons.inj hrest
      obtain ⟨hrest, hds⟩ := List.forall_mem_append.mp hafter
      exact ⟨⟨hpos, before, e, rest, rfl, hrest⟩, hds⟩

theorem parker {hash : String} (hsplit : trace = more ++ rest) (h : Parked (calls more) id hash) :
    ∃ k, parkings id (logOf k trace) ≠ 0 := by
  obtain ⟨e, hmem⟩ := h.mem
  obtain ⟨k, hk⟩ := mem_calls.mp hmem
  have hall : EngineCall.updateHistoryPendingSettlement id e hash ∈ logOf k trace := by
    rw [hsplit, logOf_append]
    exact List.mem_append_left _ hk
  exact ⟨k, parkings_ne_zero hall⟩

end Traces

section Runs

/-- The store lists the row to a sweep: it was parked before the run and not written since, or the
calls so far parked it, under its hash, last. -/
def Listed (parked : List HistoryRow) (log : List EngineCall) (row : HistoryRow) : Prop :=
  (row ∈ parked ∧ ∀ c ∈ log, ¬ WritesRow row.id c) ∨
    ∃ hash, row.paymentHash = some hash ∧ Parked log row.id hash

/-- A run of entries that all return, over a store that starts with the parked rows, inserts fresh
rows, and keeps the statuses that it is told. Every order of the entries' acts is one, but a sweep
reads after the earlier ones are through: cycles take the engine's cycle lock. -/
structure Run [UnicodeCase] (parked : List HistoryRow) (entries : List Entry) (trace : Trace) :
    Prop where
  entry : ∀ (i : ℕ) (entry : Entry), entries[i]? = some entry →
    ∃ log, entry.Leaves log ∧ project i trace = entry.acts log
  tagged : ∀ step ∈ trace, step.1 < entries.length
  fresh : (insertions (calls trace)).Nodup
  inserted : ∀ id ∈ insertions (calls trace), 0 < id ∧ ∀ row ∈ parked, row.id ≠ id
  listed : ∀ before i rows after, trace = before ++ (i, .read rows) :: after →
    (rows.map HistoryRow.id).Nodup ∧ ∀ row ∈ rows, Listed parked (calls before) row
  apart : ∀ before i rows after, trace = before ++ (i, .read rows) :: after →
    ∀ j rows', j ≠ i → (j, .read rows') ∈ before → ∀ act, (j, act) ∉ after

/-- The payment of the row is reported settled to the entry, with this fee: by the executor, or
to a sweep by the node. -/
def Entry.Reports (entry : Entry) (log : List EngineCall) (id feeMsat : ℤ) : Prop :=
  match entry with
  | .sweep rows => ∃ row reply, (row, reply) ∈ answers rows log ∧ row.id = id ∧
      settledFee reply = some feeMsat
  | _ => ∃ reply, (id, reply) ∈ settlements none log ∧
      reportedFee entry.accountCosts reply = feeMsat

inductive Role [UnicodeCase] (entries : List Entry) (trace : Trace) (i : ℕ) : Prop where
  | sweep (rows : List HistoryRow) (hentry : entries[i]? = some (.sweep rows))
    (hacts : project i trace = .read rows :: (logOf i trace).map .call)
    (hswept : CostSweeps.Swept rows (logOf i trace))
  | other (entry : Entry) (hentry : entries[i]? = some entry)
    (hkind : ∀ rows, entry ≠ .sweep rows) (hhandles : Handles entry.accountCosts (logOf i trace))
  | none (hentry : entries[i]? = none) (hlog : logOf i trace = [])

variable [UnicodeCase] {parked : List HistoryRow} {entries : List Entry} {trace : Trace}
  {id : ℤ} {i j : ℕ}

theorem Run.role (h : Run parked entries trace) (i : ℕ) : Role entries trace i := by
  cases hentry : entries[i]? with
  | none =>
    refine .none hentry (List.eq_nil_iff_forall_not_mem.mpr fun c hc => ?_)
    have hlt := h.tagged _ (mem_logOf.mp hc)
    have hge := List.getElem?_eq_none_iff.mp hentry
    omega
  | some entry =>
    obtain ⟨log, hleaves, hproject⟩ := h.entry i entry hentry
    have hlog : logOf i trace = log := by
      unfold logOf
      rw [hproject, logged_acts]
    subst hlog
    by_cases hsweep : ∃ rows, entry = .sweep rows
    · obtain ⟨rows, rfl⟩ := hsweep
      exact .sweep rows hentry hproject hleaves.swept
    · rw [not_exists] at hsweep
      exact .other entry hentry hsweep (hleaves.handles hsweep)

theorem Run.fate (h : Run parked entries trace) {accountCosts : Bool}
    (hhandles : Handles accountCosts (logOf i trace)) (id : ℤ) :
    Fate accountCosts id (logOf i trace) := by
  have hsub : (insertions (logOf i trace)).Sublist (insertions (calls trace)) :=
    (logOf_sublist i trace).filterMap insertedId
  refine Handles.fate hhandles (h.fresh.sublist hsub) ?_ id
  exact fun k hk => (h.inserted k (hsub.mem hk)).1

/-- An entry that parks a row inserted it, and has no settled payment on it. -/
theorem Run.parks (h : Run parked entries trace) (hparks : parkings id (logOf i trace) ≠ 0) :
    id ∈ insertions (logOf i trace) ∧ parkings id (logOf i trace) = 1 := by
  cases h.role i with
  | sweep rows hentry hacts hswept =>
    refine absurd (List.countP_eq_zero.mpr fun c hc => ?_) hparks
    have hkind := (hswept.writes c hc).2.1
    cases c <;> simp_all [kind]
  | none hentry hlog =>
    rw [hlog] at hparks
    exact absurd rfl hparks
  | other entry hentry hkind hhandles =>
    cases h.fate hhandles id with
    | absent hwrites => exact absurd (parkings_of_no_writes hwrites) hparks
    | settled q hin hnone => exact absurd hnone hparks
    | unsettled hin hone => exact ⟨hin, by omega⟩

theorem Run.parkings_le (h : Run parked entries trace) (id : ℤ) :
    parkings id (calls trace) ≤ 1 := by
  by_cases hexists : ∃ k, parkings id (logOf k trace) ≠ 0
  · obtain ⟨k, hk⟩ := hexists
    obtain ⟨hin, hone⟩ := h.parks hk
    refine (parkings_calls fun i hi => ?_).trans_le hone.le
    by_contra hparks
    exact hi (owner_unique h.fresh (h.parks hparks).1 hin)
  · push Not at hexists
    rw [parkings_calls (k := 0) fun i _ => hexists i, hexists 0]
    exact Nat.zero_le 1

theorem Run.parked_by_owner (h : Run parked entries trace) {before after : Trace}
    {rows : List HistoryRow} {row : HistoryRow}
    (hsplit : trace = before ++ (j, .read rows) :: after) (hrow : row ∈ rows)
    (hin : row.id ∈ insertions (logOf i trace)) : parkings row.id (logOf i trace) ≠ 0 := by
  rcases (h.listed before j rows after hsplit).2 row hrow with ⟨hparked, -⟩ | ⟨hash, -, hparked⟩
  · have hfresh := (h.inserted row.id (((logOf_sublist i trace).filterMap insertedId).mem hin)).2
    exact absurd rfl (hfresh row hparked)
  · obtain ⟨k, hk⟩ := parker hsplit hparked
    rwa [owner_unique h.fresh hin (h.parks hk).1]

theorem Run.not_listed_again (h : Run parked entries trace) {before early mid after : Trace}
    {rows rows' : List HistoryRow} {row row' : HistoryRow}
    (hsplit : trace = before ++ (j, .read rows) :: after) (hrow : row ∈ rows)
    (hread : before = early ++ (i, .read rows') :: mid) (hrow' : row' ∈ rows')
    (hsame : row'.id = row.id)
    (hwrite : ∃ update, .updateHistorySuccess row.id update ∈ logOf i mid) : False := by
  obtain ⟨update, hwrite⟩ := hwrite
  have hcalls : calls before = calls early ++ calls mid := by
    rw [hread, calls_append, calls_cons]
    rfl
  have hmid : .updateHistorySuccess row.id update ∈ calls mid := mem_calls.mpr ⟨i, hwrite⟩
  rcases (h.listed before j rows after hsplit).2 row hrow with ⟨-, hfree⟩ | ⟨hash, -, hparked⟩
  · rw [hcalls] at hfree
    exact hfree _ (List.mem_append_right _ hmid) rfl
  have hearlier : trace = early ++ (i, .read rows') :: (mid ++ (j, .read rows) :: after) := by
    rw [hsplit, hread, List.append_assoc]
    rfl
  have hearly : parkings row.id (calls early) ≠ 0 := by
    rcases (h.listed early i rows' _ hearlier).2 row' hrow' with ⟨hinit, -⟩ | ⟨hash', -, hparked'⟩
    · obtain ⟨k, hk⟩ := parker hsplit hparked
      have hin := ((logOf_sublist k trace).filterMap insertedId).mem (h.parks hk).1
      exact absurd hsame ((h.inserted row.id hin).2 row' hinit)
    · rw [hsame] at hparked'
      obtain ⟨e, hmem⟩ := hparked'.mem
      exact parkings_ne_zero hmem
  have hnone : parkings row.id (calls mid) = 0 := by
    have htotal := h.parkings_le row.id
    rw [hsplit, calls_append, hcalls, parkings_append, parkings_append] at htotal
    omega
  rw [hcalls] at hparked
  exact (parked_append hnone hparked).2 _ hmid rfl

theorem Run.sweeps_in_order (h : Run parked entries trace) (hne : i ≠ j)
    {rows rows' : List HistoryRow} {log log' : List EngineCall}
    (hi : project i trace = .read rows :: log.map .call)
    (hj : project j trace = .read rows' :: log'.map .call) :
    (∃ early mid after, trace = (early ++ (i, .read rows) :: mid) ++ (j, .read rows') :: after ∧
      logOf i mid = log) ∨
    ∃ early mid after, trace = (early ++ (j, .read rows') :: mid) ++ (i, .read rows) :: after ∧
      logOf j mid = log' := by
  have hordered : ∀ (k l : ℕ) (early mid after : Trace) (r r' : List HistoryRow)
      (mine : List EngineCall), l ≠ k →
      trace = (early ++ (k, .read r) :: mid) ++ (l, .read r') :: after → project k early = [] →
      project k trace = .read r :: mine.map .call → logOf k mid = mine := by
    intro k l early mid after r r' mine hkl hsplit hbefore hproject
    have hdone : project k after = [] := by
      refine project_eq_nil (h.apart _ l r' after hsplit k r hkl.symm ?_)
      exact List.mem_append_right _ List.mem_cons_self
    rw [hsplit, project_append, project_append, project_cons_self, hbefore,
      project_cons_of_ne hkl, hdone, List.append_nil, List.nil_append] at hproject
    unfold logOf
    rw [(List.cons.inj hproject).2, filterMap_logged]
  obtain ⟨early, rest, hsplit, hbefore, hrest⟩ := project_split_first hi
  rw [hsplit, project_append, project_cons_of_ne hne] at hj
  rcases List.append_eq_cons_iff.mp hj with ⟨hnone, hlater⟩ | ⟨mine, hearly, -⟩
  · obtain ⟨mid, after, rfl, -, -⟩ := project_split_first hlater
    have hwhole : trace = (early ++ (i, .read rows) :: mid) ++ (j, .read rows') :: after := by
      rw [hsplit, List.append_assoc]
      rfl
    exact .inl ⟨early, mid, after, hwhole, hordered i j early mid after rows rows' log hne.symm
      hwhole hbefore hi⟩
  · obtain ⟨first, mid, rfl, hfirst, -⟩ := project_split_first hearly
    have hwhole : trace = (first ++ (j, .read rows') :: mid) ++ (i, .read rows) :: rest := hsplit
    refine .inr ⟨first, mid, rest, hwhole, ?_⟩
    refine hordered j i first mid rest rows' rows log' hne hwhole hfirst ?_
    rw [hsplit, project_append, project_cons_of_ne hne]
    exact hj

def Reports (entries : List Entry) (trace : Trace) (i : ℕ) (id feeMsat : ℤ) : Prop :=
  ∃ entry, entries[i]? = some entry ∧ entry.Reports (logOf i trace) id feeMsat

/-- Where an entry that handles rows has a report on one, its payment settled. -/
theorem Run.settled_of_report (h : Run parked entries trace) {entry : Entry} {feeMsat : ℤ}
    (hkind : ∀ rows, entry ≠ .sweep rows)
    (hhandles : Handles entry.accountCosts (logOf i trace))
    (hreport : entry.Reports (logOf i trace) id feeMsat) :
    id ∈ insertions (logOf i trace) ∧ parkings id (logOf i trace) = 0 ∧
      Charged feeMsat (costsOf id (logOf i trace)) := by
  have hreply : ∃ reply, (id, reply) ∈ settlements none (logOf i trace) ∧
      reportedFee entry.accountCosts reply = feeMsat := by
    cases entry with
    | sweep rows => exact absurd rfl (hkind rows)
    | _ => exact hreport
  obtain ⟨reply, hmem, rfl⟩ := hreply
  cases h.fate hhandles id with
  | absent _ _ hsilent => exact absurd hmem (hsilent reply)
  | settled q hin hnone honly hcharged =>
    obtain rfl := (honly reply).mp hmem
    exact ⟨hin, hnone, hcharged⟩
  | unsettled _ _ _ hsilent => exact absurd hmem (hsilent reply)

theorem Run.swept_of_report (h : Run parked entries trace) {rows : List HistoryRow} {feeMsat : ℤ}
    (hacts : project i trace = .read rows :: (logOf i trace).map .call)
    (hswept : CostSweeps.Swept rows (logOf i trace))
    (hreport : (Entry.sweep rows).Reports (logOf i trace) id feeMsat) :
    ∃ row ∈ rows, row.id = id ∧ Charged feeMsat (costsOf id (logOf i trace)) ∧
      ∃ update, .updateHistorySuccess id update ∈ logOf i trace := by
  obtain ⟨row, reply, hmem, rfl, hfee⟩ := hreport
  obtain ⟨before, after, hsplit, -, -⟩ := project_split_first hacts
  have hdistinct := (h.listed before i rows after hsplit).1
  obtain ⟨hcharged, hupdate⟩ := hswept.charged hdistinct hmem hfee
  exact ⟨row, mem_answers hmem, rfl, hcharged, hupdate⟩

theorem Run.charged (h : Run parked entries trace) {feeMsat : ℤ}
    (hreport : Reports entries trace i id feeMsat) :
    Charged feeMsat (costsOf id (logOf i trace)) := by
  obtain ⟨entry, hentry, hreport⟩ := hreport
  cases h.role i with
  | none hnone =>
    rw [hnone] at hentry
    cases hentry
  | sweep rows hsweep hacts hswept =>
    obtain rfl := Option.some.inj (hsweep.symm.trans hentry)
    obtain ⟨row, -, -, hcharged, -⟩ := h.swept_of_report hacts hswept hreport
    exact hcharged
  | other other hother hkind hhandles =>
    obtain rfl := Option.some.inj (hother.symm.trans hentry)
    exact (h.settled_of_report hkind hhandles hreport).2.2

theorem Run.free (h : Run parked entries trace)
    (hnone : ∀ feeMsat, ¬ Reports entries trace i id feeMsat) :
    costsOf id (logOf i trace) = [] := by
  cases h.role i with
  | none hentry hlog => rw [hlog]; rfl
  | sweep rows hentry hacts hswept =>
    refine hswept.costsOf_nil fun row reply hmem hid => ?_
    cases hfee : settledFee reply with
    | none => rfl
    | some feeMsat => exact absurd ⟨_, hentry, row, reply, hmem, hid, hfee⟩ (hnone feeMsat)
  | other entry hentry hkind hhandles =>
    cases h.fate hhandles id with
    | absent _ hcosts => exact hcosts
    | unsettled _ _ hcosts => exact hcosts
    | settled q _ _ honly =>
      refine absurd ⟨entry, hentry, ?_⟩ (hnone (reportedFee entry.accountCosts q))
      cases entry with
      | sweep rows => exact absurd rfl (hkind rows)
      | _ => exact ⟨q, (honly q).mpr rfl, rfl⟩

theorem Run.reports_once (h : Run parked entries trace) {feeMsat feeMsat' : ℤ}
    (hi : Reports entries trace i id feeMsat) (hj : Reports entries trace j id feeMsat') :
    i = j := by
  have hmixed : ∀ (k l : ℕ) (entry : Entry) (rows : List HistoryRow) (fee fee' : ℤ),
      (∀ rows, entry ≠ .sweep rows) → Handles entry.accountCosts (logOf k trace) →
      entry.Reports (logOf k trace) id fee →
      project l trace = .read rows :: (logOf l trace).map .call →
      CostSweeps.Swept rows (logOf l trace) →
      (Entry.sweep rows).Reports (logOf l trace) id fee' → False := by
    intro k l entry rows fee fee' hkind hhandles hk hacts hswept hl
    obtain ⟨hin, hparks, -⟩ := h.settled_of_report hkind hhandles hk
    obtain ⟨row, hrow, rfl, -⟩ := h.swept_of_report hacts hswept hl
    obtain ⟨before, after, hsplit, -, -⟩ := project_split_first hacts
    exact h.parked_by_owner hsplit hrow hin hparks
  obtain ⟨entry, hentry, hi⟩ := hi
  obtain ⟨entry', hentry', hj⟩ := hj
  cases h.role i with
  | none hnone =>
    rw [hnone] at hentry
    cases hentry
  | sweep rows hsweep hacts hswept =>
    obtain rfl := Option.some.inj (hsweep.symm.trans hentry)
    cases h.role j with
    | none hnone =>
      rw [hnone] at hentry'
      cases hentry'
    | other other hother hkind hhandles =>
      obtain rfl := Option.some.inj (hother.symm.trans hentry')
      exact (hmixed j i _ _ _ _ hkind hhandles hj hacts hswept hi).elim
    | sweep rows' hsweep' hacts' hswept' =>
      obtain rfl := Option.some.inj (hsweep'.symm.trans hentry')
      by_contra hne
      obtain ⟨row, hrow, hid, -, update, hupdate⟩ := h.swept_of_report hacts hswept hi
      obtain ⟨row', hrow', hid', -, update', hupdate'⟩ := h.swept_of_report hacts' hswept' hj
      rcases h.sweeps_in_order hne hacts hacts' with
        ⟨early, mid, after, hsplit, hmid⟩ | ⟨early, mid, after, hsplit, hmid⟩
      · refine h.not_listed_again hsplit hrow' rfl hrow (hid.trans hid'.symm) ⟨update, ?_⟩
        rw [hmid, hid']
        exact hupdate
      · refine h.not_listed_again hsplit hrow rfl hrow' (hid'.trans hid.symm) ⟨update', ?_⟩
        rw [hmid, hid]
        exact hupdate'
  | other other hother hkind hhandles =>
    obtain rfl := Option.some.inj (hother.symm.trans hentry)
    cases h.role j with
    | none hnone =>
      rw [hnone] at hentry'
      cases hentry'
    | sweep rows hsweep hacts hswept =>
      obtain rfl := Option.some.inj (hsweep.symm.trans hentry')
      exact (hmixed i j _ _ _ _ hkind hhandles hi hacts hswept hj).elim
    | other other' hother' hkind' hhandles' =>
      obtain rfl := Option.some.inj (hother'.symm.trans hentry')
      exact owner_unique h.fresh (h.settled_of_report hkind hhandles hi).1
        (h.settled_of_report hkind' hhandles' hj).1

theorem Run.booked (h : Run parked entries trace) (i : ℕ) :
    costCalls (logOf i trace) = (bookings none (logOf i trace)).map Prod.snd := by
  cases h.role i with
  | none hentry hlog => rw [hlog]; rfl
  | sweep rows hentry hacts hswept => exact hswept.booked
  | other entry hentry hkind hhandles =>
    refine Handles.booked hhandles fun k hk => ?_
    exact (h.inserted k (((logOf_sublist i trace).filterMap insertedId).mem hk)).1

/-- A row whose payment is reported settled with a fee is charged exactly once, with the fee
rounded up to whole sats; every other row is charged nothing; and there are no other costs. -/
theorem settled_fees_recorded_once (h : Run parked entries trace) :
    (∀ id i feeMsat, Reports entries trace i id feeMsat → 0 < feeMsat →
      ∃ cost, costsOf id (logOf i trace) = [cost] ∧ cost.costMsat = feeMsat ∧
        cost.costSats = ⌈(feeMsat : ℚ) / 1000⌉ ∧ ∀ j ≠ i, costsOf id (logOf j trace) = []) ∧
    (∀ id, (∀ i feeMsat, Reports entries trace i id feeMsat → feeMsat ≤ 0) →
      ∀ i, costsOf id (logOf i trace) = []) ∧
    ∀ i, costCalls (logOf i trace) = (bookings none (logOf i trace)).map Prod.snd := by
  refine ⟨?_, ?_, h.booked⟩
  · intro id i feeMsat hreport hpos
    rcases h.charged hreport with ⟨-, cost, hcost, hmsat, hsats⟩ | ⟨hnone, -⟩
    · refine ⟨cost, hcost, hmsat, hsats, fun j hj => h.free fun fee hother => ?_⟩
      exact hj (h.reports_once hother hreport)
    · omega
  · intro id hfree i
    by_cases hreport : ∃ feeMsat, Reports entries trace i id feeMsat
    · obtain ⟨feeMsat, hreport⟩ := hreport
      rcases h.charged hreport with ⟨hpos, -⟩ | ⟨-, hnone⟩
      · have hle := hfree i feeMsat hreport
        omega
      · exact hnone
    · rw [not_exists] at hreport
      exact h.free hreport

end Runs

section Fixtures

def replyingStore (reply : ExecutionResult) : EngineDeps Unit :=
  { unavailableStore with
    insertOrAdoptHistory := fun _ _ => (1, ())
    execute := fun _ _ => (reply, ()) }

def settledReply (feeSats feeMsat : ℤ) : ExecutionResult :=
  { failedResult "" 1000 with
    success := true
    error := none
    feeSats := feeSats
    feeMsat := feeMsat }

def normalChannel (scid peerId : String) : Json :=
  .obj [("state", .str "CHANNELD_NORMAL"), ("short_channel_id", .str scid),
    ("peer_id", .str peerId), ("our_amount_msat", .int 400000000)]

def twoChannels : FacadeDeps Unit :=
  { getFunds := fun _ => (.ok (.obj [("channels",
      .arr [normalChannel "1x1x1" "02aa", normalChannel "2x2x2" "02bb"])]), ())
    getPeerChannels := fun _ => (.ok (.obj []), ())
    getTotalRebalanceFees := fun _ _ => (0, ())
    setChannelProbe := fun _ _ _ => ()
    estimateInboundFee := fun _ _ => (some 0, ()) }

def manualConfig : ManualConfig := ⟨⟨⟨5000, 35000, 24⟩, 0, 50⟩, 0⟩

def manualRun : Outcome Empty JsonMap × EngineState Unit :=
  @manualRebalance Unit asciiCase (replyingStore (settledReply 5 0)) twoChannels manualConfig
    "1x1x1" "2x2x2" 1000 (some 10) false (.start () "03" 1 [])

def workerRun : Outcome Empty ExecutionResult × EngineState Unit :=
  @executePair Unit asciiCase (replyingStore (settledReply 5 9223372036854775807))
    (explicitPair candidate) true
    true none (.start () "03" 1 [])

def parkedRow : HistoryRow :=
  { id := 1
    fromChannel := "1x1x1"
    toChannel := "2x2x2"
    amountSats := 1000
    maxFeeSats := 10
    expectedProfitSats := 0
    status := "pending_settlement"
    rebalanceType := "normal"
    reasonCode := "ev_positive"
    paymentHash := some "a1b2" }

def completed : Json :=
  .obj [("payments", .arr [.obj [("status", .str "complete"), ("amount_sent_msat", .int 1001500),
    ("amount_msat", .int 1000000)]])]

def settlingStore : EngineDeps Unit :=
  { unavailableStore with
    pendingSettlementRows := fun _ => ([parkedRow], ())
    listsendpays := fun _ _ => (.ok completed, ()) }

theorem worker_parks : ∃ row req request error, @Entry.Leaves asciiCase
    (.worker (explicitPair candidate)) [.insertOrAdoptHistory row 1, .reserveBudget req none,
      .execute request pendingReply, .updateHistoryPendingSettlement 1 error "a1b2"] :=
  ⟨_, _, _, _, Unit, replyingStore pendingReply, twoChannels, .start () "03" 1 [], _, rfl, rfl,
    nofun⟩

theorem sweep_settles : ∃ update cost, @Entry.Leaves asciiCase (.sweep [parkedRow])
    [.listsendpays "a1b2" (.ok completed), .updateHistorySuccess 1 update,
      .recordRebalanceCost cost, .markBudgetSpent "1" 2] := by
  refine ⟨_, _, Unit, settlingStore, twoChannels, .start () "03" 1 [], _, rfl, rfl, ?_⟩
  rintro rows ⟨⟩
  rfl

def stepsOf (i : ℕ) (log : List EngineCall) : Trace := log.map fun c => (i, .call c)

theorem stepsOf_no_read {i j : ℕ} {log : List EngineCall} {rows : List HistoryRow} :
    (j, .read rows) ∉ stepsOf i log := by
  intro hmem
  obtain ⟨c, -, hc⟩ := List.mem_map.mp hmem
  cases hc

theorem project_stepsOf {i j : ℕ} {log : List EngineCall} :
    project j (stepsOf i log) = if i = j then log.map .call else [] := by
  induction log with
  | nil => exact (ite_self _).symm
  | cons c log ih =>
    by_cases hij : i = j
    · subst hij
      rw [if_pos rfl] at ih ⊢
      exact project_cons_self.trans (congrArg _ ih)
    · rw [if_neg hij] at ih ⊢
      exact (project_cons_of_ne hij).trans ih

theorem read_split {i j k l : ℕ} {log more : List EngineCall} {rows rows' : List HistoryRow}
    {before after : Trace}
    (h : stepsOf k log ++ (i, .read rows) :: stepsOf l more = before ++ (j, .read rows') :: after) :
    before = stepsOf k log ∧ j = i ∧ rows' = rows ∧ after = stepsOf l more := by
  rcases List.append_eq_append_iff.mp h with ⟨rest, rfl, hrest⟩ | ⟨rest, hlog, hrest⟩
  · cases rest with
    | nil =>
      obtain ⟨heq, rfl⟩ := List.cons.inj hrest
      cases heq
      exact ⟨List.append_nil _, rfl, rfl, rfl⟩
    | cons step rest =>
      obtain ⟨-, hmore⟩ := List.cons.inj hrest
      have hmem : (j, Act.read rows') ∈ stepsOf l more := by
        rw [hmore]
        exact List.mem_append_right _ List.mem_cons_self
      exact absurd hmem stepsOf_no_read
  · cases rest with
    | nil =>
      obtain ⟨heq, rfl⟩ := List.cons.inj hrest
      cases heq
      exact ⟨by rw [hlog, List.append_nil], rfl, rfl, rfl⟩
    | cons step rest =>
      obtain ⟨rfl, -⟩ := List.cons.inj hrest
      have hmem : (j, Act.read rows') ∈ stepsOf k log := by
        rw [hlog]
        exact List.mem_append_right _ List.mem_cons_self
      exact absurd hmem stepsOf_no_read

theorem parked_then_swept {row : HistoryRow} {error : String} {between more : List EngineCall}
    (hworker : @Entry.Leaves asciiCase (.worker (explicitPair candidate))
      (.insertOrAdoptHistory row 1 ::
        (between ++ [.updateHistoryPendingSettlement 1 error "a1b2"])))
    (hbetween : insertions between = []) (hmore : insertions more = [])
    (hsweep : @Entry.Leaves asciiCase (.sweep [parkedRow]) more) :
    @Run asciiCase [] [.worker (explicitPair candidate), .sweep [parkedRow]]
      (stepsOf 0 (.insertOrAdoptHistory row 1 ::
        (between ++ [.updateHistoryPendingSettlement 1 error "a1b2"])) ++
          (1, .read [parkedRow]) :: stepsOf 1 more) := by
  have hcalls : ∀ i log, calls (stepsOf i log) = log := by
    intro i log
    unfold calls stepsOf
    rw [List.filterMap_map]
    exact List.filterMap_some
  have hinserted : insertions (calls (stepsOf 0 (.insertOrAdoptHistory row 1 ::
      (between ++ [.updateHistoryPendingSettlement 1 error "a1b2"])) ++
        (1, .read [parkedRow]) :: stepsOf 1 more)) = [1] := by
    rw [calls_append, hcalls, calls_cons, hcalls, insertions_append, insertions_append, hmore]
    have hrest := @insertions_append between [.updateHistoryPendingSettlement 1 error "a1b2"]
    rw [hbetween] at hrest
    exact congrArg (1 :: · ++ ([] ++ [])) hrest
  refine @Run.mk asciiCase _ _ _ ?_ ?_ ?_ ?_ ?_ ?_
  · intro i entry hentry
    rcases i with _ | _ | i
    · cases hentry
      refine ⟨_, hworker, ?_⟩
      rw [project_append, project_stepsOf, if_pos rfl, project_cons_of_ne (by decide),
        project_stepsOf, if_neg (by decide), List.append_nil]
      rfl
    · cases hentry
      refine ⟨_, hsweep, ?_⟩
      rw [project_append, project_stepsOf, if_neg (by decide), project_cons_self,
        project_stepsOf, if_pos rfl]
      rfl
    · simp at hentry
  · intro step hstep
    rcases List.mem_append.mp hstep with hstep | hstep
    · obtain ⟨c, -, rfl⟩ := List.mem_map.mp hstep
      simp
    · rcases List.mem_cons.mp hstep with rfl | hstep
      · simp
      · obtain ⟨c, -, rfl⟩ := List.mem_map.mp hstep
        simp
  · rw [hinserted]
    exact List.nodup_singleton 1
  · rw [hinserted]
    exact List.forall_mem_singleton.mpr ⟨by decide, List.forall_mem_nil _⟩
  · intro before i rows after hsplit
    obtain ⟨rfl, rfl, rfl, rfl⟩ := read_split hsplit
    refine ⟨List.nodup_singleton _, List.forall_mem_singleton.mpr (.inr ⟨"a1b2", rfl, ?_⟩)⟩
    rw [hcalls]
    exact ⟨by decide, .insertOrAdoptHistory row 1 :: between, error, [], rfl, List.forall_mem_nil _⟩
  · intro before i rows after hsplit j rows' hne hmem
    obtain ⟨rfl, rfl, rfl, rfl⟩ := read_split hsplit
    exact absurd hmem stepsOf_no_read

/-- A worker parks its payment, and a later sweep finds it completed and books it. -/
theorem parked_payment_charged_once : ∃ trace,
    @Run asciiCase [] [.worker (explicitPair candidate), .sweep [parkedRow]] trace ∧
      ∃ cost, costsOf 1 (logOf 1 trace) = [cost] ∧ cost.costMsat = 1500 ∧
        cost.costSats = ⌈((1500 : ℤ) : ℚ) / 1000⌉ ∧ ∀ j ≠ 1, costsOf 1 (logOf j trace) = [] := by
  obtain ⟨row, req, request, error, hworker⟩ := worker_parks
  obtain ⟨update, booked, hsweep⟩ := sweep_settles
  have hrun := @parked_then_swept row error
    [.reserveBudget req none, .execute request pendingReply] _ hworker rfl rfl hsweep
  refine ⟨_, hrun, (@settled_fees_recorded_once asciiCase _ _ _ hrun).1 1 1 1500 ?_ (by decide)⟩
  refine ⟨.sweep [parkedRow], rfl, parkedRow, .ok completed, ?_, rfl, by decide⟩
  exact List.mem_singleton_self _

/-- The facade books no fee that is reported in whole sats only, and a fee too large to round up
in i64 stops the engine before it books it. -/
theorem positive_fee_not_recorded :
    ((settlements none manualRun.2.log).map (fun s => (s.1, s.2.feeSats)) = [(1, 5)] ∧
      costCalls manualRun.2.log = []) ∧
    ((settlements none workerRun.2.log).map (fun s => (s.1, s.2.feeMsat)) =
      [(1, 9223372036854775807)] ∧
      costCalls workerRun.2.log = []) := by
  refine ⟨⟨?_, List.length_eq_zero_iff.mp ?_⟩, ?_, List.length_eq_zero_iff.mp ?_⟩
  all_goals decide +kernel

end Fixtures

end CostRuns
