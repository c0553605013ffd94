import RevenueOps.Reconcile

/-! Executions without an outcome. The scan of the sweep forgets the order of the events of a key,
so one earlier ending takes a running execution out of flight. -/
namespace ReconcileInFlight

open FallibleState JsonValue EconIntents EconLedger Reconcile

/-- An event that ends an execution: an outcome, or a reconciliation that replay reads as one. -/
def EndsExecution (e : LedgerEvent) : Prop :=
  e.eventType ∈ [EventType.executionSucceeded, .executionFailed, .intentRejected,
    .intentDeferred] ∨
    (e.eventType = .reconciliationCompleted ∧ detailsTerminal e.details = true)

instance (e : LedgerEvent) : Decidable (EndsExecution e) :=
  inferInstanceAs (Decidable (_ ∨ _))

def OpenExecution (events : List LedgerEvent) (k : String) : Prop :=
  ∃ earlier start later, events = earlier ++ start :: later ∧
    start.eventType = .executionStarted ∧ start.idempotencyKey = k ∧
    ∀ e ∈ later, e.idempotencyKey = k → ¬EndsExecution e

def Retained (report : ReconciliationReport) (k : String) : Prop :=
  ∀ d ∈ report.divergences, d.key = k → d.kind = .unknownOutcome ∧ d.resolution = none

/-- Anywhere in the stream the key has an event that the scan counts as terminal. -/
def TerminalAnywhere (events : List LedgerEvent) (k : String) : Prop :=
  ∃ e ∈ events, e.eventType ∈ startedTerminalEvents ∧ e.idempotencyKey = k

theorem open_inFlight_iff {events : List LedgerEvent} {k : String} (h : OpenExecution events k) :
    k ∈ startedWithoutTerminal events ↔ ¬TerminalAnywhere events k := by
  obtain ⟨earlier, start, later, rfl, htype, hkey, -⟩ := h
  rw [mem_startedWithoutTerminal]
  constructor
  · exact fun hk => hk.2
  · exact fun hk => ⟨⟨start, by simp, htype, hkey⟩, hk⟩

theorem retained_iff {events : List LedgerEvent} {db : DbStates} {now stale : ℤ}
    {report : ReconciliationReport} (h : reconcile events db now stale = .ok report)
    (k : String) :
    Retained report k ↔ ¬∃ d ∈ report.divergences, d.key = k ∧ d.resolution ≠ none := by
  obtain ⟨state, classified, quarantined, hs⟩ := reconcile_ok.mp h
  constructor
  · rintro hret ⟨d, hd, hkey, hres⟩
    exact hres (hret d hd hkey).2
  · intro hnone d hd hkey
    rcases hs.mem_divergences.mp hd with hc | hq
    · refine absurd ⟨d, hd, hkey, ?_⟩ hnone
      rw [(hs.resolved hc).2.1.resolution]
      simp
    · exact (hs.unresolved hq).2

/-- A running execution is left alone exactly when no event of its key is terminal for the scan,
or the replayed reservation already agrees with the row. -/
theorem open_retained_iff {events : List LedgerEvent} {db : DbStates} {now stale : ℤ}
    {report : ReconciliationReport} {state : LedgerState} {k : String}
    (hopen : OpenExecution events k) (hstate : replay events = .ok state)
    (hreport : reconcile events db now stale = .ok report) :
    Retained report k ↔
      ¬TerminalAnywhere events k ∨ Agrees (valueAt state.reservedMsat k) db[k]? := by
  rw [retained_iff hreport, resolved_iff hreport hstate, not_and_or, not_not, not_not,
    open_inFlight_iff hopen]

section Retry

def retryEvent (t : EventType) (atTime : ℤ) (amounts : Amounts) : LedgerEvent :=
  { eventType := t
    intentId := "intent"
    idempotencyKey := "key"
    cycleId := "cycle"
    atTime := atTime
    amounts := amounts
    details := .obj [] }

def retriedEvents : List LedgerEvent :=
  [retryEvent .budgetReserved 1 {("reserved_msat", 5000)},
    retryEvent .executionStarted 2 ∅,
    retryEvent .executionFailed 3 ∅,
    retryEvent .budgetReserved 4 {("reserved_msat", 5000)},
    retryEvent .executionStarted 5 ∅]

theorem openExecution_retried : OpenExecution retriedEvents "key" :=
  ⟨retriedEvents.take 4, retryEvent .executionStarted 5 ∅, [], rfl, rfl, rfl, by simp⟩

def retriedReport (db : DbStates) : ReconciliationReport :=
  (reconcile retriedEvents db 10 3600).value.getD ⟨0, 0, []⟩

/-- Without a row the sweep sets the reservation of the running attempt to zero. -/
theorem retried_execution_resolved : OpenExecution retriedEvents "key" ∧
    reconcile retriedEvents ∅ 10 3600 = .ok (retriedReport ∅) ∧
    ¬Retained (retriedReport ∅) "key" := by
  have hreport : reconcile retriedEvents ∅ 10 3600 = .ok (retriedReport ∅) :=
    ok_of_isSome (by decide +kernel)
  refine ⟨openExecution_retried, hreport, fun hret => ?_⟩
  have hany : (retriedReport ∅).divergences.any
      (fun d => d.key = "key" ∧ d.resolution.isSome) = true := by decide +kernel
  obtain ⟨d, hd, hkey⟩ := List.any_eq_true.mp hany
  have hres := of_decide_eq_true hkey
  simp [(hret d hd hres.1).2] at hres

/-- With the matching row the sweep leaves the same attempt alone. -/
theorem retried_execution_retained : Retained (retriedReport {("key", ⟨"active", 5⟩)}) "key" := by
  have hreport : reconcile retriedEvents {("key", ⟨"active", 5⟩)} 10 3600 =
      .ok (retriedReport {("key", ⟨"active", 5⟩)}) := ok_of_isSome (by decide +kernel)
  have hvalue : (replay retriedEvents).toOption.map
      (fun state => valueAt state.reservedMsat "key") = some 5000 := by decide +kernel
  obtain ⟨state, classified, quarantined, hs⟩ := reconcile_ok.mp hreport
  have hreserved : valueAt state.reservedMsat "key" = 5000 := by
    simpa [hs.replayed, Except.toOption] using hvalue
  apply (open_retained_iff openExecution_retried hs.replayed hreport).mpr
  rw [hreserved]
  exact Or.inr ⟨by decide, fun _ => by decide⟩

end Retry

end ReconcileInFlight
