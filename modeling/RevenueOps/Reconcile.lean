import RevenueOps.EconLedger
import RevenueOps.RustNumber
import Mathlib.Data.List.ReduceOption
import Std.Data.ExtTreeSet

/-! The reconciliation sweep: the replayed ledger against the spend_reservations rows, and the
correction events that the sweep appends. The rows are read only. -/
namespace Reconcile

open FallibleState JsonValue RustNumber EconIntents EconLedger

/-- DB-side truth for one spend_reservations row. -/
structure DbReservationState where
  status : String
  reservedSats : ℤ

abbrev DbStates := Std.ExtTreeMap String DbReservationState

def dbReservedMsatChecked (reservedSats : ℤ) : EconResult ℤ :=
  checkedI64 (reservedSats * 1000) s!"reconcile: db reserved_sats * 1000 overflow: {reservedSats}"

/-- Statuses that mean "no longer outstanding". -/
def dbTerminal : List String := ["spent", "released"]

/-- Terminal events of the in-flight scan; not the terminal events of replay. -/
def startedTerminalEvents : List EventType :=
  [.executionSucceeded, .executionFailed, .intentRejected, .intentDeferred,
    .reconciliationCompleted]

inductive DivergenceKind where
  | dbMissing
  | ledgerStaleReservation
  | ledgerMissingReservation
  | amountMismatch
  | unknownOutcome
  deriving DecidableEq, Repr

def DivergenceKind.text : DivergenceKind → String
  | dbMissing => "db_missing"
  | ledgerStaleReservation => "ledger_stale_reservation"
  | ledgerMissingReservation => "ledger_missing_reservation"
  | amountMismatch => "amount_mismatch"
  | unknownOutcome => "unknown_outcome"

structure Divergence where
  kind : DivergenceKind
  key : String
  ledgerReservedMsat : ℤ
  dbStatus : Option String
  dbReservedSats : Option ℤ
  resolution : Option Json
  details : Json

structure ReconciliationReport where
  checked : ℕ
  matched : ℕ
  divergences : List Divergence

structure StartScan where
  started : Amounts
  terminalKeys : Std.ExtTreeSet String

def StartScan.empty : StartScan := ⟨∅, ∅⟩

def scanEvent (s : StartScan) (e : LedgerEvent) : StartScan :=
  if e.eventType = .executionStarted then
    let entry := s.started[e.idempotencyKey]?.getD e.atTime
    { s with started := s.started.insert e.idempotencyKey (max entry e.atTime) }
  else if e.eventType ∈ startedTerminalEvents then
    { s with terminalKeys := s.terminalKeys.insert e.idempotencyKey }
  else s

/-- The latest start of each key that has no terminal event. -/
def startedWithoutTerminal (events : List LedgerEvent) : Amounts :=
  let s := events.foldl scanEvent .empty
  s.started.filter fun k _ => !s.terminalKeys.contains k

/-- The outstanding and the active keys, without those in flight, in key order. -/
def reconcileKeys (outstanding : Amounts) (db : DbStates) (inFlight : Amounts) : List String :=
  let keys := Std.ExtTreeSet.ofList outstanding.keys
  let keys :=
    db.foldl (fun keys k row => if row.status = "active" then keys.insert k else keys) keys
  let keys := inFlight.foldl (fun keys k _ => keys.erase k) keys
  keys.toList

def reservedResolution (msat : ℤ) : Json := .obj [("reserved_msat", .int msat)]

def classify (outstanding : Amounts) (db : DbStates) (key : String) :
    EconResult (Option Divergence) :=
  let ledgerMsat := valueAt outstanding key
  match db[key]? with
  | none =>
    .ok (some
      { kind := .dbMissing
        key := key
        ledgerReservedMsat := ledgerMsat
        dbStatus := none
        dbReservedSats := none
        resolution := some (reservedResolution 0)
        details := .obj [("note", .str "no spend_reservations row")] })
  | some row =>
    if row.status ∈ dbTerminal ∧ 0 < ledgerMsat then
      .ok (some
        { kind := .ledgerStaleReservation
          key := key
          ledgerReservedMsat := ledgerMsat
          dbStatus := some row.status
          dbReservedSats := some row.reservedSats
          resolution := some (reservedResolution 0)
          details := .obj [("db_status", .str row.status), ("terminal", .bool true)] })
    else if row.status = "active" ∧ ledgerMsat = 0 then do
      let dbMsat ← dbReservedMsatChecked row.reservedSats
      pure (some
        { kind := .ledgerMissingReservation
          key := key
          ledgerReservedMsat := 0
          dbStatus := some row.status
          dbReservedSats := some row.reservedSats
          resolution := some (reservedResolution dbMsat)
          details := .obj [("db_status", .str row.status)] })
    else if row.status = "active" then do
      let dbMsat ← dbReservedMsatChecked row.reservedSats
      pure (if ledgerMsat ≠ dbMsat then some
        { kind := .amountMismatch
          key := key
          ledgerReservedMsat := ledgerMsat
          dbStatus := some row.status
          dbReservedSats := some row.reservedSats
          resolution := some (reservedResolution dbMsat)
          details := .obj [("db_status", .str row.status)] }
      else none)
    else .ok none

/-- An execution in flight beyond the staleness horizon is quarantined, never resolved. -/
def quarantine (outstanding : Amounts) (db : DbStates) (now staleAfterSeconds : ℤ)
    (entry : String × ℤ) : Outcome EconError (Option Divergence) := do
  let age ← .checked (subI64 now entry.2)
  pure (if age > staleAfterSeconds then some
    { kind := .unknownOutcome
      key := entry.1
      ledgerReservedMsat := valueAt outstanding entry.1
      dbStatus := db[entry.1]?.map DbReservationState.status
      dbReservedSats := db[entry.1]?.map DbReservationState.reservedSats
      resolution := none
      details := .obj [("age_seconds", .int age),
        ("reason_code", .str "EXTERNAL_OUTCOME_UNKNOWN"), ("started_at", .int entry.2)] }
  else none)

def reconcile (events : List LedgerEvent) (db : DbStates) (now staleAfterSeconds : ℤ) :
    Outcome EconError ReconciliationReport := do
  let state ← .ofExcept (replay events)
  let inFlight := startedWithoutTerminal events
  let keys := reconcileKeys state.reservedMsat db inFlight
  let classified ← keys.mapM fun k => .ofExcept (classify state.reservedMsat db k)
  let quarantined ← inFlight.toList.mapM (quarantine state.reservedMsat db now staleAfterSeconds)
  pure
    { checked := keys.length
      matched := classified.countP Option.isNone
      divergences := classified.reduceOption ++ quarantined.reduceOption }

def valueToAmounts : Json → EconResult Amounts
  | .obj members =>
    members.foldlM (fun out m =>
      match m.2.asI64 with
      | some n => .ok (out.insert m.1 n)
      | none => .error ⟨s!"reconcile: resolution field {m.1.quote} is not an integer"⟩) ∅
  | _ => .error ⟨"reconcile: resolution must be a JSON object"⟩

def correction (now : ℤ) (d : Divergence) (resolution : Json) : EconResult LedgerEvent := do
  let details ← match d.details with
    | .obj members => .ok (.obj (Json.insertMember members "kind" (.str d.kind.text)))
    | _ => .error ⟨s!"reconcile: divergence details for {d.key.quote} is not a JSON object"⟩
  let amounts ← valueToAmounts resolution
  pure
    { eventType := .reconciliationCompleted
      intentId := String.ofList (d.key.toList.take 16)
      idempotencyKey := d.key
      cycleId := "reconcile"
      atTime := now
      amounts := amounts
      details := details }

def appendEvent (e : LedgerEvent) : Eff Ledger EconError ℕ := fun l =>
  match append e l with
  | (.ok id, l) => (.ok id, l)
  | (.error err, l) => (.err err, l)

def applyDivergence (now : ℤ) (applied : ℕ) (d : Divergence) : Eff Ledger EconError ℕ :=
  match d.resolution with
  | none => pure applied
  | some resolution => do
    let e ← Eff.ofExcept (correction now d resolution)
    let _ ← appendEvent e
    pure (applied + 1)

/-- One correction for each resolvable divergence; the number applied. -/
def apply (report : ReconciliationReport) (now : ℤ) : Eff Ledger EconError ℕ :=
  report.divergences.foldlM (applyDivergence now) 0

section InFlight

theorem foldl_scan_started {events : List LedgerEvent} {s : StartScan} {k : String} :
    k ∈ (events.foldl scanEvent s).started ↔
      k ∈ s.started ∨ ∃ e ∈ events, e.eventType = .executionStarted ∧ e.idempotencyKey = k := by
  induction events generalizing s with
  | nil => simp
  | cons e events ih =>
    rw [List.foldl_cons, ih]
    have hstep : k ∈ (scanEvent s e).started ↔
        k ∈ s.started ∨ (e.eventType = .executionStarted ∧ e.idempotencyKey = k) := by
      unfold scanEvent
      split
      · rename_i ht
        simp [ht, or_comm]
      · rename_i ht
        split <;> simp [ht]
    rw [hstep]
    simp only [List.mem_cons, exists_eq_or_imp, or_assoc]

theorem foldl_scan_terminal {events : List LedgerEvent} {s : StartScan} {k : String} :
    k ∈ (events.foldl scanEvent s).terminalKeys ↔ k ∈ s.terminalKeys ∨
      ∃ e ∈ events, e.eventType ∈ startedTerminalEvents ∧ e.idempotencyKey = k := by
  induction events generalizing s with
  | nil => simp
  | cons e events ih =>
    rw [List.foldl_cons, ih]
    have hstep : k ∈ (scanEvent s e).terminalKeys ↔
        k ∈ s.terminalKeys ∨ (e.eventType ∈ startedTerminalEvents ∧ e.idempotencyKey = k) := by
      unfold scanEvent
      split
      · rename_i ht
        simp [ht, startedTerminalEvents]
      · split
        · rename_i ht
          simp [ht, or_comm]
        · rename_i ht
          simp [ht]
    rw [hstep]
    simp only [List.mem_cons, exists_eq_or_imp, or_assoc]

theorem mem_startedWithoutTerminal_scan {events : List LedgerEvent} {k : String} :
    k ∈ startedWithoutTerminal events ↔ k ∈ (events.foldl scanEvent .empty).started ∧
      k ∉ (events.foldl scanEvent .empty).terminalKeys := by
  simp only [startedWithoutTerminal, Std.ExtTreeMap.mem_filter, Std.ExtTreeMap.getKey_eq,
    Bool.not_eq_true', ← Bool.not_eq_true, Std.ExtTreeSet.contains_iff_mem, exists_prop]

theorem mem_startedWithoutTerminal {events : List LedgerEvent} {k : String} :
    k ∈ startedWithoutTerminal events ↔
      (∃ e ∈ events, e.eventType = .executionStarted ∧ e.idempotencyKey = k) ∧
        ¬∃ e ∈ events, e.eventType ∈ startedTerminalEvents ∧ e.idempotencyKey = k := by
  rw [mem_startedWithoutTerminal_scan, foldl_scan_started, foldl_scan_terminal]
  simp [StartScan.empty]

theorem foldl_scan_closed {corrections : List LedgerEvent} {s : StartScan}
    (hc : ∀ e ∈ corrections, e.eventType = .reconciliationCompleted) :
    (corrections.foldl scanEvent s).started = s.started := by
  induction corrections generalizing s with
  | nil => rfl
  | cons e corrections ih =>
    rw [List.foldl_cons, ih fun e' he' => hc e' (by simp [he'])]
    have ht := hc e (by simp)
    unfold scanEvent
    simp [ht, startedTerminalEvents]

/-- Corrections of keys that are not in flight leave the in-flight map as it was. -/
theorem startedWithoutTerminal_append {events corrections : List LedgerEvent}
    (hc : ∀ e ∈ corrections, e.eventType = .reconciliationCompleted ∧
      e.idempotencyKey ∉ startedWithoutTerminal events) :
    startedWithoutTerminal (events ++ corrections) = startedWithoutTerminal events := by
  have hstarted := foldl_scan_closed (s := events.foldl scanEvent .empty) fun e he => (hc e he).1
  apply Std.ExtTreeMap.ext_getElem?
  intro k
  simp only [startedWithoutTerminal, List.foldl_append, Std.ExtTreeMap.getElem?_filter', hstarted]
  cases hk : (events.foldl scanEvent .empty).started[k]? with
  | none => rfl
  | some v =>
    have hsame : k ∈ (corrections.foldl scanEvent (events.foldl scanEvent .empty)).terminalKeys ↔
        k ∈ (events.foldl scanEvent .empty).terminalKeys := by
      rw [foldl_scan_terminal]
      constructor
      · rintro (hk' | ⟨e, he, -, rfl⟩)
        · exact hk'
        · -- The corrected key has a start, so it is a terminal event that keeps it out of flight.
          by_contra hno
          apply (hc e he).2
          rw [mem_startedWithoutTerminal_scan]
          exact ⟨Std.ExtTreeMap.mem_iff_isSome_getElem?.mpr (by rw [hk]; rfl), hno⟩
      · exact Or.inl
    simp only [← Std.ExtTreeSet.contains_iff_mem] at hsame
    rw [Bool.eq_iff_iff.mpr hsame]

end InFlight

section Keys

private theorem mem_foldl_insert {rows : List (String × DbReservationState)}
    {keys : Std.ExtTreeSet String} {k : String} :
    k ∈ rows.foldl (fun keys r => if r.2.status = "active" then keys.insert r.1 else keys) keys ↔
      k ∈ keys ∨ ∃ row, (k, row) ∈ rows ∧ row.status = "active" := by
  induction rows generalizing keys with
  | nil => simp
  | cons r rows ih =>
    obtain ⟨k', row'⟩ := r
    rw [List.foldl_cons, ih]
    by_cases hrow : row'.status = "active"
    · simp only [hrow, if_true, Std.ExtTreeSet.mem_insert, List.mem_cons, Prod.mk.injEq,
        Std.LawfulEqCmp.compare_eq_iff_eq]
      grind
    · simp only [hrow, if_false, List.mem_cons, Prod.mk.injEq]
      grind

private theorem mem_foldl_erase {entries : List (String × ℤ)} {keys : Std.ExtTreeSet String}
    {k : String} : k ∈ entries.foldl (fun keys r => keys.erase r.1) keys ↔
      k ∈ keys ∧ k ∉ entries.map Prod.fst := by
  induction entries generalizing keys with
  | nil => simp
  | cons r entries ih =>
    rw [List.foldl_cons, ih, Std.ExtTreeSet.mem_erase]
    simp only [List.map_cons, List.mem_cons, not_or, ne_eq, Std.LawfulEqCmp.compare_eq_iff_eq]
    grind

theorem mem_reconcileKeys {outstanding inFlight : Amounts} {db : DbStates} {k : String} :
    k ∈ reconcileKeys outstanding db inFlight ↔
      (k ∈ outstanding ∨ ∃ row, db[k]? = some row ∧ row.status = "active") ∧ k ∉ inFlight := by
  simp only [reconcileKeys, Std.ExtTreeSet.mem_toList, Std.ExtTreeMap.foldl_eq_foldl_toList]
  rw [mem_foldl_erase, mem_foldl_insert, Std.ExtTreeMap.map_fst_toList_eq_keys,
    Std.ExtTreeMap.mem_keys, Std.ExtTreeSet.mem_ofList]
  simp only [List.contains_iff_mem, Std.ExtTreeMap.mem_keys,
    Std.ExtTreeMap.mem_toList_iff_getElem?_eq_some]

end Keys

section Classification

def dbTruth (row : Option DbReservationState) : ℤ :=
  match row with
  | some row => if row.status = "active" then row.reservedSats * 1000 else 0
  | none => 0

/-- The ledger's reservation needs no correction. -/
def Agrees (reserved : ℤ) (row : Option DbReservationState) : Prop :=
  match row with
  | none => reserved = 0
  | some row => (row.status ∈ dbTerminal → reserved ≤ 0) ∧
      (row.status = "active" → reserved ≠ 0 ∧ reserved = row.reservedSats * 1000)

theorem active_not_terminal : "active" ∉ dbTerminal := by
  decide

theorem dbReservedMsatChecked_ok {sats msat : ℤ} (h : dbReservedMsatChecked sats = .ok msat) :
    msat = sats * 1000 := by
  unfold dbReservedMsatChecked checkedI64 at h
  split at h
  · exact (Except.ok.inj h).symm
  · cases h

/-- A resolution sets the reservation to what the row stands for. -/
structure Resolves (db : DbStates) (d : Divergence) : Prop where
  resolution : d.resolution = some (reservedResolution (dbTruth db[d.key]?))
  details : ∃ members, d.details = .obj members ∧ Integral (.obj members)

/-- A classified key agrees with its row, or it gets the resolution that its row stands for. -/
theorem classify_ok {outstanding : Amounts} {db : DbStates} {k : String} {c : Option Divergence}
    (h : classify outstanding db k = .ok c) :
    (c = none ∧ db[k]? ≠ none ∧ Agrees (valueAt outstanding k) db[k]?) ∨
      ∃ d, c = some d ∧ d.key = k ∧ Resolves db d ∧
        (db[k]? = none ∨ ¬Agrees (valueAt outstanding k) db[k]?) := by
  unfold classify at h
  cases hrow : db[k]? with
  | none =>
    simp only [hrow] at h
    refine Or.inr ⟨_, (Except.ok.inj h).symm, rfl, ⟨?_, _, rfl, ?_⟩, Or.inl rfl⟩
    · simp [dbTruth, hrow]
    · simp [Integral, IntegralMembers]
  | some row =>
    simp only [hrow] at h
    split at h
    · rename_i hstale
      have hna : row.status ≠ "active" := fun ha => active_not_terminal (ha ▸ hstale.1)
      refine Or.inr ⟨_, (Except.ok.inj h).symm, rfl, ⟨?_, _, rfl, ?_⟩, Or.inr fun ha => ?_⟩
      · simp [dbTruth, hrow, hna]
      · simp [Integral, IntegralMembers]
      · exact absurd (ha.1 hstale.1) (by omega)
    · rename_i hstale
      split at h
      · rename_i hmissing
        cases hmsat : dbReservedMsatChecked row.reservedSats with
        | error err => simp [hmsat, bind, Except.bind] at h
        | ok msat =>
          simp only [hmsat, bind, Except.bind, pure, Except.pure] at h
          refine Or.inr ⟨_, (Except.ok.inj h).symm, rfl, ⟨?_, _, rfl, ?_⟩, Or.inr fun ha => ?_⟩
          · simp [dbTruth, hrow, hmissing.1, dbReservedMsatChecked_ok hmsat]
          · simp [Integral, IntegralMembers]
          · exact (ha.2 hmissing.1).1 hmissing.2
      · rename_i hmissing
        split at h
        · rename_i hactive
          cases hmsat : dbReservedMsatChecked row.reservedSats with
          | error err => simp [hmsat, bind, Except.bind] at h
          | ok msat =>
            have hvalue := dbReservedMsatChecked_ok hmsat
            simp only [hmsat, bind, Except.bind, pure, Except.pure] at h
            split at h
            · rename_i hdiffers
              refine Or.inr ⟨_, (Except.ok.inj h).symm, rfl, ⟨?_, _, rfl, ?_⟩, Or.inr fun ha => ?_⟩
              · simp [dbTruth, hrow, hactive, hvalue]
              · simp [Integral, IntegralMembers]
              · exact hdiffers (hvalue ▸ (ha.2 hactive).2)
            · rename_i hequal
              refine Or.inl ⟨(Except.ok.inj h).symm, by simp, ?_, fun _ => ⟨?_, ?_⟩⟩
              · intro hterm
                exact absurd (hactive ▸ hterm) active_not_terminal
              · exact fun hzero => hmissing ⟨hactive, hzero⟩
              · rw [← hvalue]
                exact not_not.mp hequal
        · rename_i hactive
          refine Or.inl ⟨(Except.ok.inj h).symm, by simp, ?_, fun ha => absurd ha hactive⟩
          exact fun hterm => not_lt.mp fun hpos => hstale ⟨hterm, hpos⟩

theorem quarantine_ok {outstanding : Amounts} {db : DbStates} {now stale : ℤ}
    {entry : String × ℤ} {c : Option Divergence}
    (h : quarantine outstanding db now stale entry = .ok c) :
    ∀ d ∈ c, d.key = entry.1 ∧ d.kind = .unknownOutcome ∧ d.resolution = none := by
  intro d hd
  unfold quarantine at h
  obtain ⟨age, -, h⟩ := Outcome.bind_eq_ok.mp h
  rw [Outcome.pure_eq_ok] at h
  split at h
  · obtain rfl := Option.some.inj (h.trans hd)
    exact ⟨rfl, rfl, rfl⟩
  · rw [← h] at hd
    cases hd

end Classification

section Sweep

structure Sweep (events : List LedgerEvent) (db : DbStates) (now stale : ℤ)
    (report : ReconciliationReport) (state : LedgerState)
    (classified quarantined : List (Option Divergence)) : Prop where
  replayed : replay events = .ok state
  classifies : (reconcileKeys state.reservedMsat db (startedWithoutTerminal events)).map
    (fun k => .ofExcept (classify state.reservedMsat db k)) =
      classified.map Outcome.ok
  quarantines : (startedWithoutTerminal events).toList.map
    (quarantine state.reservedMsat db now stale) = quarantined.map Outcome.ok
  report : report =
    { checked := classified.length
      matched := classified.countP Option.isNone
      divergences := classified.reduceOption ++ quarantined.reduceOption }

theorem reconcile_ok {events : List LedgerEvent} {db : DbStates} {now stale : ℤ}
    {report : ReconciliationReport} : reconcile events db now stale = .ok report ↔
      ∃ state classified quarantined,
        Sweep events db now stale report state classified quarantined := by
  unfold reconcile
  simp only [Outcome.bind_eq_ok, Outcome.ofExcept_eq_ok, Outcome.mapM_eq_ok, Outcome.pure_eq_ok]
  constructor
  · rintro ⟨state, hstate, classified, hclassified, quarantined, hquarantined, hreport⟩
    have hlength : (reconcileKeys state.reservedMsat db (startedWithoutTerminal events)).length =
        classified.length := by
      simpa using congrArg List.length hclassified
    rw [hlength] at hreport
    exact ⟨state, classified, quarantined, hstate, hclassified, hquarantined, hreport.symm⟩
  · rintro ⟨state, classified, quarantined, hstate, hclassified, hquarantined, hreport⟩
    have hlength : (reconcileKeys state.reservedMsat db (startedWithoutTerminal events)).length =
        classified.length := by
      simpa using congrArg List.length hclassified
    exact ⟨state, hstate, classified, hclassified, quarantined, hquarantined,
      by rw [hlength, hreport]⟩

variable {events : List LedgerEvent} {db : DbStates} {now stale : ℤ}
  {report : ReconciliationReport} {state : LedgerState}
  {classified quarantined : List (Option Divergence)}

theorem mem_iff_valueAt {k : String} (h : replay events = .ok state) :
    k ∈ state.reservedMsat ↔ valueAt state.reservedMsat k ≠ 0 := by
  rw [Std.ExtTreeMap.mem_iff_isSome_getElem?, replay_reserved_getElem? h]
  by_cases hzero : valueAt state.reservedMsat k = 0 <;> simp [hzero]

theorem agrees_of_not_mem {k : String} (h : replay events = .ok state)
    (hflight : k ∉ startedWithoutTerminal events)
    (hk : k ∉ reconcileKeys state.reservedMsat db (startedWithoutTerminal events)) :
    Agrees (valueAt state.reservedMsat k) db[k]? := by
  rw [mem_reconcileKeys, mem_iff_valueAt h] at hk
  simp only [hflight, not_false_eq_true, and_true, not_or, not_not, not_exists, not_and] at hk
  obtain ⟨hzero, hrow⟩ := hk
  cases hdb : db[k]? with
  | none => exact hzero
  | some row => exact ⟨fun _ => le_of_eq hzero, fun ha => absurd ha (hrow row hdb)⟩

theorem Sweep.classified_of_mem (h : Sweep events db now stale report state classified quarantined)
    {k : String}
    (hk : k ∈ reconcileKeys state.reservedMsat db (startedWithoutTerminal events)) :
    ∃ c ∈ classified, classify state.reservedMsat db k = .ok c := by
  have hmem := List.mem_map_of_mem
    (f := fun k => Outcome.ofExcept (classify state.reservedMsat db k)) hk
  rw [h.classifies, List.mem_map] at hmem
  obtain ⟨c, hc, heq⟩ := hmem
  exact ⟨c, hc, Outcome.ofExcept_eq_ok.mp heq.symm⟩

theorem Sweep.mem_classified (h : Sweep events db now stale report state classified quarantined)
    {c : Option Divergence} (hc : c ∈ classified) :
    ∃ k ∈ reconcileKeys state.reservedMsat db (startedWithoutTerminal events),
      classify state.reservedMsat db k = .ok c := by
  have hmem := List.mem_map_of_mem (f := Outcome.ok (ε := EconError)) hc
  rw [← h.classifies, List.mem_map] at hmem
  obtain ⟨k, hk, heq⟩ := hmem
  exact ⟨k, hk, Outcome.ofExcept_eq_ok.mp heq⟩

/-- A resolvable divergence is about one key that is not in flight and disagrees with its row. -/
theorem Sweep.resolved (h : Sweep events db now stale report state classified quarantined)
    {d : Divergence} (hd : some d ∈ classified) :
    d.key ∉ startedWithoutTerminal events ∧ Resolves db d ∧
      ¬Agrees (valueAt state.reservedMsat d.key) db[d.key]? := by
  obtain ⟨k, hk, hc⟩ := h.mem_classified hd
  obtain ⟨hkeys, hflight⟩ := mem_reconcileKeys.mp hk
  rcases classify_ok hc with ⟨hnone, -⟩ | ⟨d', hd', rfl, hres, hdis⟩
  · cases hnone
  · obtain rfl := Option.some.inj hd'
    refine ⟨hflight, hres, ?_⟩
    rcases hdis with hnone | hdis
    · -- Without a row only an outstanding reservation puts the key into the sweep.
      rw [hnone] at hkeys ⊢
      simpa [mem_iff_valueAt h.replayed, Agrees] using hkeys
    · exact hdis

theorem Sweep.unresolved (h : Sweep events db now stale report state classified quarantined)
    {d : Divergence} (hd : some d ∈ quarantined) :
    d.key ∈ startedWithoutTerminal events ∧ d.kind = .unknownOutcome ∧ d.resolution = none := by
  have hmem := List.mem_map_of_mem (f := Outcome.ok (ε := EconError)) hd
  rw [← h.quarantines, List.mem_map] at hmem
  obtain ⟨entry, hentry, hq⟩ := hmem
  obtain ⟨hkey, hkind, hres⟩ := quarantine_ok hq d rfl
  refine ⟨?_, hkind, hres⟩
  obtain ⟨k, v⟩ := entry
  rw [Std.ExtTreeMap.mem_toList_iff_getElem?_eq_some] at hentry
  rw [hkey, Std.ExtTreeMap.mem_iff_isSome_getElem?, hentry]
  rfl

theorem Sweep.mem_divergences (h : Sweep events db now stale report state classified quarantined)
    {d : Divergence} :
    d ∈ report.divergences ↔ some d ∈ classified ∨ some d ∈ quarantined := by
  rw [h.report, List.mem_append, List.reduceOption_mem_iff, List.reduceOption_mem_iff]

/-- The sweep resolves a key exactly when it is not in flight and disagrees with its row. -/
theorem resolved_iff (h : reconcile events db now stale = .ok report)
    (hstate : replay events = .ok state) (k : String) :
    (∃ d ∈ report.divergences, d.key = k ∧ d.resolution ≠ none) ↔
      k ∉ startedWithoutTerminal events ∧ ¬Agrees (valueAt state.reservedMsat k) db[k]? := by
  obtain ⟨state', classified, quarantined, hs⟩ := reconcile_ok.mp h
  obtain rfl := Except.ok.inj (hs.replayed.symm.trans hstate)
  constructor
  · rintro ⟨d, hd, rfl, hres⟩
    rcases hs.mem_divergences.mp hd with hd | hd
    · exact ⟨(hs.resolved hd).1, (hs.resolved hd).2.2⟩
    · exact absurd (hs.unresolved hd).2.2 hres
  · rintro ⟨hflight, hdis⟩
    have hk : k ∈ reconcileKeys state'.reservedMsat db (startedWithoutTerminal events) := by
      by_contra hno
      exact hdis (agrees_of_not_mem hstate hflight hno)
    obtain ⟨c, hc, hclass⟩ := hs.classified_of_mem hk
    rcases classify_ok hclass with ⟨-, -, hagrees⟩ | ⟨d, rfl, hkey, hres, -⟩
    · exact absurd hagrees hdis
    · refine ⟨d, hs.mem_divergences.mpr (Or.inl hc), hkey, ?_⟩
      rw [hres.resolution]
      simp

end Sweep

end Reconcile
